import Mathlib.Data.List.Basic

/-!
# Words of a shell command

How a POSIX shell splits a text into words, and a simple command into the variables that it assigns
and its arguments (`command`). A text for which the shell would do more than that is not split: one
with operators or comments, with expansions, or with patterns for the names of files. Some others
are not split either: a tilde, a brace or an exclamation mark that is not quoted may be literal.

* `words_unwords`: plain words that are separated by blanks are the words of the text.
-/

namespace Encoding.Shell

/-- A word, and whether a part of it was quoted. -/
structure Word where
  text : List Char
  quoted : Bool
  deriving DecidableEq, Repr

/-- Where in a text the shell is. -/
inductive Mode
  | between
  | word (w : Word)
  /-- After a backslash. -/
  | escape (text : List Char)
  | single (text : List Char)
  | double (text : List Char)
  /-- After a backslash in double quotes. -/
  | doubleEscape (text : List Char)
  deriving DecidableEq, Repr

def isBlank (c : Char) : Bool := c == ' ' || c == '\t'

/-- Operators, expansions and patterns, and what may be one of them. -/
def isSpecial (c : Char) : Bool :=
  c ∈ ['|', '&', ';', '<', '>', '(', ')', '\n', '$', '\x60', '*', '?', '[', ']', '~', '{', '}', '!']

/-- The character has no meaning to the shell. -/
def isPlain (c : Char) : Bool :=
  !isBlank c && !isSpecial c && c != '\x27' && c != '\x22' && c != '\\' && c != '#'

/-- A character of a word that is not quoted. -/
def addChar (w : Word) (c : Char) : Option Mode :=
  if c = '\x27' then some (.single w.text)
  else if c = '\x22' then some (.double w.text)
  else if c = '\\' then some (.escape w.text)
  else if isSpecial c then none
  else some (.word ⟨w.text ++ [c], w.quoted⟩)

/-- The next character, and the word that it ends. -/
def step : Mode → Char → Option (Mode × Option Word)
  | .between, c =>
    if isBlank c then some (.between, none)
    else if c = '#' then none
    else (addChar ⟨[], false⟩ c).map (·, none)
  | .word w, c => if isBlank c then some (.between, some w) else (addChar w c).map (·, none)
  | .escape text, c => if c = '\n' then none else some (.word ⟨text ++ [c], true⟩, none)
  | .single text, c =>
    some (if c = '\x27' then .word ⟨text, true⟩ else .single (text ++ [c]), none)
  | .double text, c =>
    if c = '\x22' then some (.word ⟨text, true⟩, none)
    else if c = '\\' then some (.doubleEscape text, none)
    else if c = '$' ∨ c = '\x60' then none
    else some (.double (text ++ [c]), none)
  | .doubleEscape text, c =>
    if c = '\n' then none
    else if c ∈ ['$', '\x60', '\x22', '\\'] then some (.double (text ++ [c]), none)
    else some (.double (text ++ ['\\', c]), none)

/-- The words of a text. -/
def words : Mode → List Char → Option (List Word)
  | .between, [] => some []
  | .word w, [] => some [w]
  | _, [] => none
  | mode, c :: rest => do
    let (mode, ended) ← step mode c
    return ended.toList ++ (← words mode rest)

/-! ## Commands -/

/-- A simple command. -/
structure Command where
  assignments : List (List Char × List Char)
  arguments : List (List Char)
  deriving DecidableEq, Repr

/-- A variable, and the value that the word assigns to it. -/
def Word.assignment? (w : Word) : Option (List Char × List Char) :=
  let name := w.text.takeWhile (· != '=')
  if w.quoted ∨ name.length = w.text.length ∨ name = [] ∨
      ¬ name.all (fun c => c.isAlphanum || c == '_') ∨ name.head?.any Char.isDigit then none
  else some (name, w.text.drop (name.length + 1))

/-- The words that are not names of commands. -/
def reserved : List (List Char) :=
  ["if", "then", "else", "elif", "fi", "do", "done", "case", "esac", "while", "until", "for",
    "in"].map String.toList

/-- The command of the words. -/
def ofWords : List Word → Option Command
  | [] => some ⟨[], []⟩
  | w :: ws => match w.assignment? with
    | some assignment => (ofWords ws).map fun command =>
      { command with assignments := assignment :: command.assignments }
    | none => if !w.quoted ∧ w.text ∈ reserved then none else some ⟨[], (w :: ws).map Word.text⟩

/-- The simple command that a text is. -/
def command (text : List Char) : Option Command := (words .between text).bind ofWords

/-! ## Plain words -/

variable {c : Char} {w : List Char}

theorem addChar_plain (h : isPlain c = true) (v : Word) :
    addChar v c = some (.word ⟨v.text ++ [c], v.quoted⟩) := by
  simp only [isPlain, Bool.and_eq_true, Bool.not_eq_true', bne_iff_ne] at h
  obtain ⟨⟨⟨⟨⟨-, hspecial⟩, hsingle⟩, hdouble⟩, hescape⟩, -⟩ := h
  rw [addChar, if_neg hsingle, if_neg hdouble, if_neg hescape, if_neg (by simp [hspecial])]

theorem words_word_append (h : ∀ c ∈ w, isPlain c = true) (text : List Char) (q : Bool)
    (rest : List Char) :
    words (.word ⟨text, q⟩) (w ++ rest) = words (.word ⟨text ++ w, q⟩) rest := by
  induction w generalizing text with
  | nil => rw [List.append_nil, List.nil_append]
  | cons c w ih =>
    have hc := h c List.mem_cons_self
    have hblank : isBlank c = false := by
      simp only [isPlain, Bool.and_eq_true, Bool.not_eq_true'] at hc
      exact hc.1.1.1.1.1
    rw [List.cons_append, words, step, if_neg (by simp [hblank]), addChar_plain hc]
    change (words (.word ⟨text ++ [c], q⟩) (w ++ rest) >>= fun ws => some ws) = _
    rw [ih (fun d hd => h d (List.mem_cons_of_mem _ hd)), List.append_assoc, List.singleton_append]
    exact bind_pure _

/-- The start of a word. -/
theorem words_between_append (h : ∀ c ∈ w, isPlain c = true) (hne : w ≠ []) (rest : List Char) :
    words .between (w ++ rest) = words (.word ⟨w, false⟩) rest := by
  cases w with
  | nil => exact absurd rfl hne
  | cons c w =>
    have hc := h c List.mem_cons_self
    have hplain := hc
    simp only [isPlain, Bool.and_eq_true, Bool.not_eq_true', bne_iff_ne] at hplain
    rw [List.cons_append, words, step, if_neg (by simp [hplain.1.1.1.1.1]), if_neg hplain.2,
      addChar_plain hc]
    change (words (.word ⟨[] ++ [c], false⟩) (w ++ rest) >>= fun ws => some ws) = _
    rw [words_word_append fun d hd => h d (List.mem_cons_of_mem _ hd)]
    exact bind_pure _

/-- Words, with a blank between them. -/
def unwords : List (List Char) → List Char
  | [] => []
  | [w] => w
  | w :: ws => w ++ ' ' :: unwords ws

theorem words_unwords (ws : List (List Char)) (h : ∀ w ∈ ws, w ≠ [] ∧ ∀ c ∈ w, isPlain c = true) :
    words .between (unwords ws) = some (ws.map (⟨·, false⟩)) := by
  induction ws with
  | nil => rfl
  | cons w ws ih =>
    obtain ⟨hne, hplain⟩ := h w List.mem_cons_self
    cases ws with
    | nil =>
      have hword := words_between_append hplain hne []
      rw [List.append_nil] at hword
      exact hword
    | cons w' ws =>
      rw [unwords, words_between_append hplain hne, words]
      change (words .between (unwords (w' :: ws)) >>= fun vs => some (⟨w, false⟩ :: vs)) = _
      rw [ih fun v hv => h v (List.mem_cons_of_mem _ hv)]
      rfl
      exact nofun

end Encoding.Shell
