import NexusOps.Model.Hostname
import NexusOps.Sftp.Path
import Mathlib.Logic.Function.Basic
import Mathlib.Tactic.SplitIfs

/-!
# Values of a host

How the texts that a host returns are read (`parsers.rs`): lines, and the assignments of
`os-release`.

* `osRelease_name`: a name in double quotes is read as it was before it was escaped.
-/

namespace NexusOps.Discovery

open Function
open Sftp (isControl)

/-! ## Texts -/

/-- The lines of a text. What has been read of the current line is `line`, in reverse. -/
def linesFrom (line : List Char) : List Char → List (List Char)
  | [] => if line = [] then [] else [line.reverse]
  | '\n' :: rest =>
    (if line.head? = some '\r' then line.tail else line).reverse :: linesFrom [] rest
  | c :: rest => linesFrom (c :: line) rest

def lines (text : List Char) : List (List Char) := linesFrom [] text

/-- The texts before and after the first separator. -/
def splitOnce (separator : Char) (text : List Char) : Option (List Char × List Char) :=
  match text.dropWhile (· ≠ separator) with
  | [] => none
  | _ :: rest => some (text.takeWhile (· ≠ separator), rest)

/-- A text is left as it is between characters that are not whitespace. -/
theorem trim_eq {first last : Char} (text : List Char) (hfirst : isWhitespace first = false)
    (hlast : isWhitespace last = false) : trim (first :: (text ++ [last])) = first :: (text ++ [last]) := by
  simp [trim, trimEndMatches, hfirst, hlast]

/-! ## Assignments -/

def unsupported : AppError := .new .discovery "The host returned an unsupported discovery value."

def scalar (output : List Char) : Except AppError (List Char) :=
  let value := trim output
  if value = [] ∨ 256 < byteLength value ∨ value.any isControl = true then .error unsupported
  else .ok value

/-- The characters that are escaped in double quotes. -/
def special : List Char := ['$', '\x60', '"', '\\']

/-- What stands in double quotes. A backslash before another character stands for itself. -/
def unquote : List Char → Except AppError (List Char)
  | [] => .ok []
  | '"' :: _ => .error unsupported
  | '\\' :: [] => .error unsupported
  | '\\' :: next :: rest =>
    if next ∈ special then (next :: ·) <$> unquote rest else ('\\' :: ·) <$> unquote (next :: rest)
  | c :: rest => (c :: ·) <$> unquote rest

/-- The value of an assignment that starts with `first`. -/
def rawValue (first : Char) (rest : List Char) : Except AppError (List Char) :=
  if first = '"' ∨ first = '\x27' then
    if byteLength (first :: rest) < 2 ∨ (first :: rest).getLast? ≠ some first then .error unsupported
    else if first = '"' then unquote rest.dropLast
    else if '\x27' ∈ rest.dropLast then .error unsupported
    else .ok rest.dropLast
  else if (first :: rest).any fun c => isWhitespace c || c = '\x27' || c = '"' then .error unsupported
  else .ok (first :: rest)

def assignmentValue : List Char → Except AppError (List Char)
  | [] => .ok []
  | first :: rest =>
    match rawValue first rest with
    | .error e => .error e
    | .ok value => if value = [] then .ok value else scalar value

/-- The assignments that are looked for. -/
inductive OsKey
  | name
  | id
  | versionId
  | version
  deriving DecidableEq, Repr

def osKey (key : List Char) : Option OsKey :=
  [("NAME", .name), ("ID", .id), ("VERSION_ID", .versionId), ("VERSION", OsKey.version)].lookup
    (String.ofList key)

/-- The assignment of a line. -/
def assignment (line : List Char) : Option (OsKey × List Char) :=
  let line := trim line
  if line = [] ∨ line.head? = some '#' then none
  else match splitOnce '=' line with
    | none => none
    | some (key, value) => (osKey key).map (·, trim value)

/-- The values that are assigned, the last one for each key. -/
def readLines (values : OsKey → Option (List Char)) :
    List (List Char) → Except AppError (OsKey → Option (List Char))
  | [] => .ok values
  | line :: rest =>
    match assignment line with
    | none => readLines values rest
    | some (key, value) =>
      match assignmentValue value with
      | .error e => .error e
      | .ok value => readLines (update values key (some value)) rest

def osRelease (output : List Char) : Except AppError (List Char × Option (List Char)) :=
  match readLines (fun _ => none) (lines output) with
  | .error e => .error e
  | .ok values =>
    match values .name <|> values .id with
    | none => .error unsupported
    | some name =>
      if name = [] then .error unsupported
      else .ok (name, (values .versionId <|> values .version).filter (· ≠ []))

/-! ## Quoted names -/

/-- A value with a backslash before each special character. -/
def escapeQuoted (value : List Char) : List Char :=
  value.flatMap fun c => if c ∈ special then ['\\', c] else [c]

def nameLine (value : List Char) : List Char :=
  "NAME=".toList ++ '"' :: (escapeQuoted value ++ ['"'])

variable {value output : List Char}

theorem unquote_escapeQuoted (value : List Char) : unquote (escapeQuoted value) = .ok value := by
  induction value with
  | nil => rfl
  | cons c value ih =>
    change unquote ((if c ∈ special then ['\\', c] else [c]) ++ escapeQuoted value) = _
    split_ifs with hc
    · change unquote ('\\' :: c :: escapeQuoted value) = _
      rw [unquote, if_pos hc, ih]
      rfl
    · have hquote : c ≠ '"' := fun h => hc (h ▸ by decide)
      have hbackslash : c ≠ '\\' := fun h => hc (h ▸ by decide)
      change unquote (c :: escapeQuoted value) = _
      rw [unquote, ih]
      · rfl
      all_goals simp [hquote, hbackslash]

theorem assignment_nameLine (value : List Char) :
    assignment (nameLine value) = some (.name, '"' :: (escapeQuoted value ++ ['"'])) := by
  have hline : nameLine value = 'N' :: ("AME=\"".toList ++ escapeQuoted value ++ ['"']) := by
    simp [nameLine]
  have hsplit : splitOnce '=' (nameLine value) =
      some ("NAME".toList, '"' :: (escapeQuoted value ++ ['"'])) := rfl
  have htrim : trim (nameLine value) = nameLine value := by
    rw [hline]
    exact trim_eq _ rfl rfl
  have hkey : osKey "NAME".toList = some .name := by decide
  have hassigns : ¬(nameLine value = [] ∨ (nameLine value).head? = some '#') := by
    rw [hline]
    simp
  rw [assignment, htrim, if_neg hassigns, hsplit]
  simp only [hkey, Option.map_some]
  rw [trim_eq _ rfl rfl]

/-- A name without whitespace around it is read from between its quotes. -/
theorem assignmentValue_quoted (hne : value ≠ []) (hsize : byteLength value ≤ 256)
    (hcontrol : ∀ c ∈ value, isControl c = false) (htrim : trim value = value) :
    assignmentValue ('"' :: (escapeQuoted value ++ ['"'])) = .ok value := by
  have hlength : ¬byteLength ('"' :: (escapeQuoted value ++ ['"'])) < 2 := by
    have hquote : Char.utf8Size '"' = 1 := rfl
    simp only [byteLength, List.map_cons, List.map_append, List.sum_cons, List.sum_append, hquote,
      List.map_nil, List.sum_nil]
    omega
  have hlast : ('"' :: (escapeQuoted value ++ ['"'])).getLast? = some '"' := by
    rw [← List.cons_append, List.getLast?_concat]
  have hraw : rawValue '"' (escapeQuoted value ++ ['"']) = .ok value := by
    rw [rawValue, if_pos (.inl rfl), if_neg (not_or.2 ⟨hlength, not_not.2 hlast⟩), if_pos rfl,
      List.dropLast_concat, unquote_escapeQuoted]
  have hscalar : ¬(value = [] ∨ 256 < byteLength value ∨ value.any isControl = true) := by
    rw [List.any_eq_true]
    rintro (hnil | hlong | ⟨c, hc, hcontrol'⟩)
    · exact hne hnil
    · omega
    · rw [hcontrol c hc] at hcontrol'
      nomatch hcontrol'
  rw [assignmentValue, hraw]
  simp only [if_neg hne, scalar, htrim, if_neg hscalar]

/-- Every line is read, and the name is that of the lines that assign it. -/
theorem readLines_name {lines : List (List Char)} {values : OsKey → Option (List Char)}
    (hname : ∀ line ∈ lines, ∀ text, assignment line = some (.name, text) →
      assignmentValue text = .ok value)
    (hvalid : ∀ line ∈ lines, ∀ key text, assignment line = some (key, text) →
      ∃ value, assignmentValue text = .ok value)
    (h : values .name = some value ∨ ∃ line ∈ lines, ∃ text, assignment line = some (.name, text)) :
    ∃ values', readLines values lines = .ok values' ∧ values' .name = some value := by
  induction lines generalizing values with
  | nil => exact ⟨values, rfl, h.resolve_right fun ⟨_, hmem, _⟩ => absurd hmem List.not_mem_nil⟩
  | cons line rest ih =>
    have ih' := fun values' => @ih values' (fun l hl => hname l (List.mem_cons_of_mem _ hl))
      fun l hl => hvalid l (List.mem_cons_of_mem _ hl)
    rw [readLines]
    cases hline : assignment line with
    | none =>
      refine ih' values (h.imp_right ?_)
      rintro ⟨l, hl, text, htext⟩
      rcases List.mem_cons.1 hl with rfl | hl
      · nomatch hline.symm.trans htext
      · exact ⟨l, hl, text, htext⟩
    | some entry =>
      obtain ⟨key, text⟩ := entry
      obtain ⟨value', hvalue'⟩ := hvalid line List.mem_cons_self key text hline
      simp only [hvalue']
      refine ih' _ ?_
      by_cases hkey : key = .name
      · subst hkey
        rw [hname line List.mem_cons_self text hline] at hvalue'
        exact .inl (by rw [update_self, Except.ok.inj hvalue'])
      · rw [update_of_ne (Ne.symm hkey)]
        refine h.imp_right ?_
        rintro ⟨l, hl, text', htext'⟩
        rcases List.mem_cons.1 hl with rfl | hl
        · rw [hline] at htext'
          exact absurd (congrArg Prod.fst (Option.some.inj htext')) hkey
        · exact ⟨l, hl, text', htext'⟩

/-- A name that is assigned once, in double quotes, is read as it was before it was escaped. -/
theorem osRelease_name (hne : value ≠ []) (hsize : byteLength value ≤ 256)
    (hcontrol : ∀ c ∈ value, isControl c = false) (htrim : trim value = value)
    (hline : nameLine value ∈ lines output)
    (honly : ∀ line ∈ lines output, ∀ text, assignment line = some (.name, text) →
      line = nameLine value)
    (hvalid : ∀ line ∈ lines output, ∀ key text, assignment line = some (key, text) →
      key ≠ .name → ∃ value, assignmentValue text = .ok value) :
    ∃ version, osRelease output = .ok (value, version) := by
  have hquoted := assignmentValue_quoted hne hsize hcontrol htrim
  have hname : ∀ line ∈ lines output, ∀ text, assignment line = some (.name, text) →
      assignmentValue text = .ok value := by
    intro line hmem text htext
    rw [honly line hmem text htext, assignment_nameLine] at htext
    obtain ⟨⟩ := htext
    exact hquoted
  have hall : ∀ line ∈ lines output, ∀ key text, assignment line = some (key, text) →
      ∃ value, assignmentValue text = .ok value := by
    intro line hmem key text htext
    by_cases hkey : key = .name
    · exact ⟨value, hname line hmem text (hkey ▸ htext)⟩
    · exact hvalid line hmem key text htext hkey
  obtain ⟨values, hread, hvalues⟩ : ∃ values, readLines (fun _ => none) (lines output) = .ok values ∧
      values .name = some value :=
    readLines_name hname hall (.inr ⟨_, hline, _, assignment_nameLine value⟩)
  rw [osRelease, hread]
  simp only [hvalues]
  exact ⟨_, if_neg hne⟩

theorem osRelease_name_escaped : ∃ version,
    osRelease "ID=x\nNAME=\"a \\\"b\\$\"\n".toList = .ok ("a \"b$".toList, version) := by
  have hlines : lines "ID=x\nNAME=\"a \\\"b\\$\"\n".toList =
      ["ID=x".toList, nameLine "a \"b$".toList] := by decide +kernel
  have hid : assignment "ID=x".toList = some (.id, ['x']) := by decide +kernel
  have hcontrol : "a \"b$".toList.all fun c => !isControl c := by decide
  refine osRelease_name (by decide) (by decide) (by simpa using hcontrol) (by decide +kernel) ?_ ?_ ?_
  · rw [hlines]
    exact List.mem_cons_of_mem _ (List.mem_singleton_self _)
  · rw [hlines]
    intro line hline text htext
    rcases List.mem_cons.1 hline with rfl | hline
    · nomatch hid.symm.trans htext
    · exact List.mem_singleton.1 hline
  · rw [hlines]
    intro line hline key text htext hkey
    rcases List.mem_cons.1 hline with rfl | hline
    · obtain ⟨⟩ := hid.symm.trans htext
      exact ⟨['x'], by decide +kernel⟩
    · rw [List.mem_singleton.1 hline, assignment_nameLine] at htext
      exact absurd (congrArg Prod.fst (Option.some.inj htext)).symm hkey

end NexusOps.Discovery
