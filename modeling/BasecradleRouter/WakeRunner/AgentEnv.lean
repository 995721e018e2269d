/-
# A credential is data

After the privilege drop the wake's shell reads the agent's `agent.env` line by line and exports
what each line assigns, with the shell's pattern operators and without evaluating anything.

`assignment_iff` is the grammar of a line: which lines assign, and what.  `loads_literally` says of
every text what environment comes of it: each name has the value its last line spells, character by
character, one layer of quotes apart.

A name is not like any other where the shell will not have it assigned, which ends the wake, where
`load_agent_env` keeps a variable of its own under it, or where the shell computes the variable
itself or reads by it what comes after.  What bash makes of the last kind is a parameter: it may
evaluate the text that is assigned (`RANDOM`, `OPTIND`), drop it (`GROUPS`), or keep it and change
its own ways (`LC_ALL`).
-/
import BasecradleRouter.Lib.Glob
import Mathlib.Data.List.DropRight
import Mathlib.Logic.Function.Basic

namespace BasecradleRouter.WakeRunner

open BasecradleRouter.Lib

/-! ## 1. Lines -/

/-- `[[:space:]]`, in the POSIX locale -/
def isSpace (c : Char) : Bool :=
  c == ' ' || c == '\t' || c == '\n' || c == '\x0b' || c == '\x0c' || c == '\r'

/-- The lines that `IFS= read -r _line || [[ -n $_line ]]` takes: each up to its end, and what is
left after the last; `read` drops what no variable can hold. -/
def fileLines (text : List Char) : List (List Char) :=
  let lines := (text.filter (· != '\x00')).splitOn '\n'
  if lines.getLast? = some [] then lines.dropLast else lines

/-- `[A-Za-z_]` -/
def nameStart (c : Char) : Bool := ('A' ≤ c && c ≤ 'Z') || ('a' ≤ c && c ≤ 'z') || c == '_'

/-- `^[A-Za-z_][A-Za-z0-9_]*$` -/
def isName : List Char → Bool
  | [] => false
  | c :: cs => nameStart c && cs.all fun c => nameStart c || ('0' ≤ c && c ≤ '9')

/-- `export ` -/
def exporting : List Char := ['e', 'x', 'p', 'o', 'r', 't', ' ']

/-- What a line assigns: a name, and the text after the first `=`. -/
def assignment (line : List Char) : Option (List Char × List Char) :=
  let line := line.dropWhile isSpace
  if line = [] ∨ line.take 1 = ['#'] then none
  else
    let line := Glob.removeShortestPrefix (Glob.literal exporting) line
    if !(Glob.contains ['=']).fits line then none
    else
      let key := ((Glob.removeLongestSuffix (Glob.starts ['=']) line).rdropWhile isSpace).dropWhile
        isSpace
      if isName key then some (key, Glob.removeShortestPrefix (Glob.ends ['=']) line) else none

/-- One layer of quotes stripped, where both ends are the same of the two quote characters. -/
def unquote (dq sq val : List Char) : List Char :=
  if 2 ≤ val.length ∧ ((val.take 1 = dq ∧ val.drop (val.length - 1) = dq) ∨
      val.take 1 = sq ∧ val.drop (val.length - 1) = sq) then
    (val.drop 1).take (val.length - 2)
  else val

/-! ## 2. The loop -/

/-- What a process is given: each variable's text. -/
abbrev Environment := List Char → Option (List Char)

/-- What the loop changes: the environment, and the two variables that hold the quote characters. -/
structure Shell where
  env : Environment
  dq : List Char
  sq : List Char

/-- The names that the shell does not let anybody assign. -/
def readonlyNames : List (List Char) :=
  ["BASHOPTS".toList, "BASH_VERSINFO".toList, "EUID".toList, "PPID".toList, "SHELLOPTS".toList,
    "UID".toList]

/-- The names of the function's own variables. -/
def localNames : List (List Char) :=
  ["_envf".toList, "_line".toList, "_key".toList, "_val".toList, "_last".toList, "_dq".toList,
    "_sq".toList]

/-- The names that the shell computes itself, or by whose values it reads and runs what comes
after. -/
def shellNames : List (List Char) :=
  ["_", "BASHPID", "BASH_ALIASES", "BASH_ARGC", "BASH_ARGV", "BASH_ARGV0", "BASH_CMDS",
    "BASH_COMMAND", "BASH_COMPAT", "BASH_LINENO", "BASH_MONOSECONDS", "BASH_REMATCH",
    "BASH_SOURCE", "BASH_SUBSHELL", "BASH_XTRACEFD", "DIRSTACK", "EPOCHREALTIME",
    "EPOCHSECONDS", "FUNCNAME", "GROUPS", "HISTCMD", "LANG", "LC_ALL", "LC_COLLATE", "LC_CTYPE",
    "LC_MESSAGES", "LC_NUMERIC", "LC_TIME", "LINENO", "OPTIND", "PIPESTATUS", "POSIXLY_CORRECT",
    "RANDOM", "SECONDS", "SRANDOM", "TMOUT"].map String.toList

/-- `export "$_key=$_val"`, of a name that is not the shell's; `none` where that fails, and the wake
with it. -/
def Shell.assign (shell : Shell) (key val : List Char) : Option Shell :=
  if key ∈ readonlyNames then none
  else if key = "_dq".toList then some { shell with dq := val }
  else if key = "_sq".toList then some { shell with sq := val }
  else if key ∈ localNames then some shell
  else some { shell with env := Function.update shell.env key (some val) }

/-- What bash makes of a line that assigns a name of its own, and of the lines after it: the
environment that it comes to, if it does. -/
abbrev OwnNames := List Char → List Char → Shell → List (List Char) → Option Environment

/-- The loop. -/
def Shell.loadLines (own : OwnNames) (shell : Shell) : List (List Char) → Option Environment
  | [] => some shell.env
  | line :: lines =>
    match assignment line with
    | none => shell.loadLines own lines
    | some (key, val) =>
      let val := unquote shell.dq shell.sq val
      if key ∈ shellNames then own key val shell lines
      else (shell.assign key val).bind fun shell => shell.loadLines own lines

/-- `load_agent_env` -/
def loadAgentEnv (own : OwnNames) (env : Environment) (text : List Char) : Option Environment :=
  Shell.loadLines own ⟨env, ['"'], ['\'']⟩ (fileLines text)

/-! ## 3. The grammar of a line -/

section

variable {p : Char → Bool} {pad gap word rest : List Char}

/-- Padding before a word is dropped. -/
theorem dropWhile_pad (hpad : ∀ c ∈ pad, p c = true) (hne : word ≠ [])
    (hword : ∀ c ∈ word, p c = false) : (pad ++ (word ++ rest)).dropWhile p = word ++ rest := by
  obtain ⟨c, word, rfl⟩ := List.exists_cons_of_ne_nil hne
  have hc : ¬ p c = true := by simp [hword c List.mem_cons_self]
  rw [List.dropWhile_append_of_pos hpad, List.cons_append, List.dropWhile_cons_of_neg hc]

/-- And what comes after it. -/
theorem trim_word (hpad : ∀ c ∈ pad, p c = true) (hgap : ∀ c ∈ gap, p c = true) (hne : word ≠ [])
    (hword : ∀ c ∈ word, p c = false) :
    ((pad ++ (word ++ gap)).rdropWhile p).dropWhile p = word := by
  have hright : (pad ++ (word ++ gap)).rdropWhile p = pad ++ (word ++ []) := by
    have hreverse : (pad ++ (word ++ gap)).reverse =
        gap.reverse ++ (word.reverse ++ pad.reverse) := by simp
    rw [List.rdropWhile, hreverse, dropWhile_pad (by simpa using hgap) (by simpa using hne)
      (by simpa using hword)]
    simp
  rw [hright, dropWhile_pad hpad hne hword, List.append_nil]

/-- A text is its padding, what is trimmed, and what is after it. -/
theorem exists_trim (p : Char → Bool) (text : List Char) : ∃ pad gap,
    (∀ c ∈ pad, p c = true) ∧ (∀ c ∈ gap, p c = true) ∧
      text = pad ++ ((text.rdropWhile p).dropWhile p ++ gap) := by
  refine ⟨(text.rdropWhile p).takeWhile p, text.rtakeWhile p, fun c hc => List.mem_takeWhile_imp hc,
    fun c hc => List.mem_rtakeWhile_imp hc, ?_⟩
  rw [← List.append_assoc, List.takeWhile_append_dropWhile, List.rdropWhile_append_rtakeWhile]

end

/-- A name has no space and no `=` in it, and is no comment. -/
theorem of_isName {key : List Char} (h : isName key = true) :
    key ≠ [] ∧ (∀ c ∈ key, isSpace c = false) ∧ '=' ∉ key ∧ key.take 1 ≠ ['#'] := by
  cases key with
  | nil => cases h
  | cons c key =>
    unfold isName at h
    simp only [Bool.and_eq_true, List.all_eq_true] at h
    obtain ⟨hstart, hrest⟩ := h
    have hchar : ∀ d ∈ c :: key, (nameStart d || ('0' ≤ d && d ≤ '9')) = true := by
      intro d hd
      rcases List.mem_cons.mp hd with rfl | hd
      · rw [hstart]
        rfl
      · exact hrest d hd
    refine ⟨List.cons_ne_nil c key, fun d hd => ?_, fun hd => ?_, fun hhash => ?_⟩
    · have hd := hchar d hd
      unfold isSpace
      simp only [Bool.or_eq_false_iff, beq_eq_false_iff_ne]
      refine ⟨⟨⟨⟨⟨?_, ?_⟩, ?_⟩, ?_⟩, ?_⟩, ?_⟩ <;> rintro rfl <;> exact absurd hd (by decide)
    · exact absurd (hchar '=' hd) (by decide)
    · cases hhash
      exact absurd hstart (by decide)

/-- Spaces and nothing else. -/
def Blank (text : List Char) : Prop := ∀ c ∈ text, isSpace c = true

/-- How a line assigns: indented, with `export ` in front of it or not, a name, and a `=` with or
without a gap before it. -/
inductive Assigns (key val : List Char) : List Char → Prop
  | bare {pad gap : List Char} (hpad : Blank pad) (hgap : Blank gap)
      (hexport : ¬ exporting <+: key ++ (gap ++ '=' :: val)) :
      Assigns key val (pad ++ (key ++ (gap ++ '=' :: val)))
  | exported {pad lead gap : List Char} (hpad : Blank pad) (hlead : Blank lead)
      (hgap : Blank gap) :
      Assigns key val (pad ++ (exporting ++ (lead ++ (key ++ (gap ++ '=' :: val)))))

theorem not_eq_of_blank {gap : List Char} (h : Blank gap) : '=' ∉ gap := fun hmem =>
  absurd (h '=' hmem) (by decide)

/-- What stands before the first `=`. -/
theorem before_equals {before after : List Char} (h : '=' ∉ before) :
    Glob.removeLongestSuffix (Glob.starts ['=']) (before ++ '=' :: after) = before := by
  have hne : ∀ c ∈ before, (c != '=') = true := by
    intro c hc
    rw [bne_iff_ne]
    rintro rfl
    exact h hc
  rw [Glob.removeLongestSuffix_char, List.takeWhile_append_of_pos hne, List.takeWhile_cons_of_neg,
    List.append_nil]
  simp

/-- What the loop makes of a line once it is stripped in front. -/
theorem assignment_read {lead key gap val : List Char} (hkey : isName key = true)
    (hlead : Blank lead) (hgap : Blank gap) :
    (Glob.contains ['=']).fits (lead ++ (key ++ (gap ++ '=' :: val))) = true ∧
      ((Glob.removeLongestSuffix (Glob.starts ['='])
        (lead ++ (key ++ (gap ++ '=' :: val)))).rdropWhile isSpace).dropWhile isSpace = key ∧
      Glob.removeShortestPrefix (Glob.ends ['=']) (lead ++ (key ++ (gap ++ '=' :: val))) = val := by
  obtain ⟨hne, hspace, hequals, -⟩ := of_isName hkey
  have hbefore : '=' ∉ lead ++ (key ++ gap) := by
    simp only [List.mem_append, not_or]
    exact ⟨not_eq_of_blank hlead, hequals, not_eq_of_blank hgap⟩
  have hsplit : lead ++ (key ++ (gap ++ '=' :: val)) = (lead ++ (key ++ gap)) ++ '=' :: val := by
    simp
  rw [hsplit, before_equals hbefore]
  exact ⟨Glob.fits_contains.mpr ⟨lead ++ (key ++ gap), val, by simp⟩,
    trim_word hlead hgap hne hspace, Glob.removeShortestPrefix_char hbefore⟩

/-- And a text with an `=` is made of what the loop makes of it. -/
theorem read_assignment {text : List Char} (h : (Glob.contains ['=']).fits text = true) :
    ∃ lead gap, Blank lead ∧ Blank gap ∧ text = lead ++
      (((Glob.removeLongestSuffix (Glob.starts ['=']) text).rdropWhile isSpace).dropWhile isSpace ++
        (gap ++ '=' :: Glob.removeShortestPrefix (Glob.ends ['=']) text)) := by
  have hmem : '=' ∈ text := (Glob.fits_contains.mp h).subset List.mem_cons_self
  obtain ⟨before, after, rfl, hbefore⟩ := List.eq_append_cons_of_mem hmem
  obtain ⟨lead, gap, hlead, hgap, htrim⟩ := exists_trim isSpace before
  refine ⟨lead, gap, hlead, hgap, ?_⟩
  rw [before_equals hbefore, Glob.removeShortestPrefix_char hbefore]
  calc before ++ '=' :: after
      = (lead ++ ((before.rdropWhile isSpace).dropWhile isSpace ++ gap)) ++ '=' :: after := by
        rw [← htrim]
    _ = _ := by simp

/-- A line whose first word is not blank, with `export ` taken off it where it begins so. -/
theorem assigns_of_read {pad body lead key gap val : List Char} (hpad : Blank pad)
    (hhead : ∀ c rest, body = c :: rest → isSpace c = false) (hlead : Blank lead)
    (hgap : Blank gap)
    (h : Glob.removeShortestPrefix (Glob.literal exporting) body =
      lead ++ (key ++ (gap ++ '=' :: val))) : Assigns key val (pad ++ body) := by
  by_cases hexport : exporting <+: body
  · obtain ⟨tail, rfl⟩ := hexport
    rw [Glob.removeShortestPrefix_literal] at h
    rw [h]
    exact .exported hpad hlead hgap
  · rw [Glob.removeShortestPrefix_literal_of_not hexport] at h
    subst h
    cases lead with
    | nil => exact .bare hpad hgap hexport
    | cons c lead =>
      have hc := hhead c _ rfl
      rw [hlead c List.mem_cons_self] at hc
      cases hc

/-- What comes after the blanks in front of a line does not begin with one. -/
theorem head_dropWhile {line : List Char} (c : Char) (rest : List Char)
    (h : line.dropWhile isSpace = c :: rest) : isSpace c = false := by
  have hself := List.dropWhile_eq_self_iff.mp (List.dropWhile_idempotent isSpace line)
  rw [h] at hself
  simpa using hself

theorem assigns_of_assignment {line key val : List Char} (h : assignment line = some (key, val)) :
    isName key = true ∧ Assigns key val line := by
  unfold assignment at h
  dsimp only at h
  split at h
  · cases h
  split at h
  · cases h
  next hequals =>
  split at h
  · next hname =>
    cases h
    rw [Bool.not_eq_true, Bool.not_eq_false'] at hequals
    obtain ⟨lead, gap, hlead, hgap, hread⟩ := read_assignment hequals
    have hpad : Blank (line.takeWhile isSpace) := fun c hc => List.mem_takeWhile_imp hc
    have hassigns := assigns_of_read hpad head_dropWhile hlead hgap hread
    rw [List.takeWhile_append_dropWhile] at hassigns
    exact ⟨hname, hassigns⟩
  · cases h

theorem assignment_of_assigns {line key val : List Char} (hkey : isName key = true)
    (h : Assigns key val line) : assignment line = some (key, val) := by
  obtain ⟨hne, hspace, -, hhash⟩ := of_isName hkey
  cases h with
  | @bare pad gap hpad hgap hexport =>
    obtain ⟨hcontains, htrim, hval⟩ := @assignment_read [] key gap val hkey
      (List.forall_mem_nil _) hgap
    rw [List.nil_append] at hcontains htrim hval
    unfold assignment
    dsimp only
    rw [dropWhile_pad hpad hne hspace, if_neg, Glob.removeShortestPrefix_literal_of_not hexport,
      hcontains, htrim, hval, hkey]
    · rfl
    · rw [not_or]
      refine ⟨by simp [hne], fun htake => hhash ?_⟩
      rwa [List.take_append_of_le_length (List.length_pos_iff.mpr hne)] at htake
  | @exported pad lead gap hpad hlead hgap =>
    obtain ⟨hcontains, htrim, hval⟩ := @assignment_read lead key gap val hkey hlead hgap
    have hexporting : (pad ++ (exporting ++ (lead ++ (key ++ (gap ++ '=' :: val))))).dropWhile
        isSpace = exporting ++ (lead ++ (key ++ (gap ++ '=' :: val))) := by
      rw [List.dropWhile_append_of_pos hpad]
      rfl
    unfold assignment
    dsimp only
    rw [hexporting, if_neg, Glob.removeShortestPrefix_literal, hcontains, htrim, hval, hkey]
    · rfl
    · rw [not_or]
      exact ⟨List.cons_ne_nil _ _, fun hhash => by cases hhash⟩

/-- **The grammar of a line**: it assigns exactly if it is so spelled. -/
theorem assignment_iff {line key val : List Char} :
    assignment line = some (key, val) ↔ isName key = true ∧ Assigns key val line :=
  ⟨assigns_of_assignment, fun h => assignment_of_assigns h.1 h.2⟩

/-! ## 4. What is loaded -/

/-- A name like any other. -/
def Ordinary (key : List Char) : Prop :=
  key ∉ readonlyNames ∧ key ∉ localNames ∧ key ∉ shellNames

/-- A line that assigns none of the names that are the shell's. -/
def LeavesShell (line : List Char) : Prop := ∀ key ∈ shellNames, ∀ val, ¬ Assigns key val line

/-- The value that is meant by what stands after the `=`. -/
def meant (val : List Char) : List Char := unquote ['"'] ['\''] val

/-- An assignment fails exactly where the name may not be assigned. -/
theorem assign_none {shell : Shell} {key val : List Char} :
    shell.assign key val = none ↔ key ∈ readonlyNames := by
  unfold Shell.assign
  by_cases hkey : key ∈ readonlyNames
  · exact iff_of_true (if_pos hkey) hkey
  · rw [if_neg hkey]
    refine iff_of_false (fun h => ?_) hkey
    split at h
    · cases h
    split at h
    · cases h
    split at h <;> cases h

/-- An ordinary name is exported. -/
theorem assign_ordinary {shell : Shell} {key : List Char} (h : Ordinary key) (val : List Char) :
    shell.assign key val = some { shell with env := Function.update shell.env key (some val) } := by
  obtain ⟨hreadonly, hlocal, -⟩ := h
  have hdq : key ≠ "_dq".toList := fun heq => hlocal (by rw [heq]; decide)
  have hsq : key ≠ "_sq".toList := fun heq => hlocal (by rw [heq]; decide)
  unfold Shell.assign
  rw [if_neg hreadonly, if_neg hdq, if_neg hsq, if_neg hlocal]

/-- A line that leaves the shell's names alone is a turn of the loop. -/
theorem loadLines_cons (own : OwnNames) (shell : Shell) {line : List Char}
    (h : LeavesShell line) (lines : List (List Char)) :
    shell.loadLines own (line :: lines) = (match assignment line with
      | none => some shell
      | some (key, val) => shell.assign key (unquote shell.dq shell.sq val)).bind fun shell =>
        shell.loadLines own lines := by
  conv_lhs => unfold Shell.loadLines
  cases hassignment : assignment line with
  | none => rfl
  | some pair =>
    obtain ⟨key, val⟩ := pair
    exact if_neg fun hkey => h key hkey val (assignment_iff.mp hassignment).2

/-- The last assignment of a name, or what it held before. -/
theorem foldl_update (assignments : List (List Char × List Char)) (env : Environment)
    (name : List Char) :
    assignments.foldl
        (fun (env : Environment) a => Function.update env a.1 (some (meant a.2))) env name =
      ((assignments.reverse.lookup name).map meant).or (env name) := by
  induction assignments generalizing env with
  | nil => rfl
  | cons a assignments ih =>
    rw [List.foldl_cons, ih, List.reverse_cons, List.lookup_append, List.lookup_cons]
    cases (assignments.reverse.lookup name) with
    | some val => rfl
    | none =>
      by_cases hname : name = a.1
      · subst hname
        simp
      · have hbeq : (name == a.1) = false := by simpa using hname
        rw [hbeq, Function.update_of_ne hname]
        rfl

/-- **The loop**, where every line assigns an ordinary name or nothing. -/
theorem loadLines_ordinary (own : OwnNames) {lines : List (List Char)} (env : Environment)
    (h : ∀ line ∈ lines, ∀ key val, isName key = true → Assigns key val line → Ordinary key) :
    Shell.loadLines own ⟨env, ['"'], ['\'']⟩ lines = some
      ((lines.filterMap assignment).foldl
        (fun (env : Environment) a => Function.update env a.1 (some (meant a.2))) env) := by
  have hnames : ∀ key ∈ shellNames, isName key = true := by decide
  induction lines generalizing env with
  | nil => rfl
  | cons line lines ih =>
    obtain ⟨hline, hlines⟩ := List.forall_mem_cons.mp h
    have hleaves : LeavesShell line := fun key hkey val hassigns =>
      (hline key val (hnames key hkey) hassigns).2.2 hkey
    rw [loadLines_cons own _ hleaves, List.filterMap_cons]
    cases hassignment : assignment line with
    | none => exact ih env hlines
    | some pair =>
      obtain ⟨key, val⟩ := pair
      obtain ⟨hname, hassigns⟩ := assignment_iff.mp hassignment
      dsimp only
      rw [assign_ordinary (hline key val hname hassigns)]
      exact ih _ hlines

/-- Lines that were written are read. -/
theorem fileLines_written {lines : List (List Char)}
    (h : ∀ line ∈ lines, '\n' ∉ line ∧ '\x00' ∉ line) :
    fileLines (lines.flatMap (· ++ ['\n'])) = lines := by
  have hfilter : (lines.flatMap (· ++ ['\n'])).filter (· != '\x00') =
      lines.flatMap (· ++ ['\n']) := by
    refine List.filter_eq_self.mpr fun c hc => ?_
    obtain ⟨line, hline, hmem⟩ := List.mem_flatMap.mp hc
    rw [bne_iff_ne]
    rintro rfl
    rcases List.mem_append.mp hmem with hmem | hmem
    · exact (h line hline).2 hmem
    · exact absurd hmem (by decide)
  have hsplit : (lines.flatMap (· ++ ['\n'])).splitOn '\n' = lines ++ [[]] := by
    clear hfilter
    induction lines with
    | nil => rfl
    | cons line lines ih =>
      obtain ⟨hline, hlines⟩ := List.forall_mem_cons.mp h
      rw [List.flatMap_cons, List.append_assoc, List.singleton_append,
        List.splitOn_append_cons_self_of_not_mem hline.1, ih hlines]
      rfl
  unfold fileLines
  rw [hfilter, hsplit]
  simp

/-- The loop fails where an assignment does. -/
theorem loadLines_none (own : OwnNames) {lines : List (List Char)} {shell : Shell}
    (h : ∀ line ∈ lines, LeavesShell line) : shell.loadLines own lines = none ↔
      ∃ line ∈ lines, ∃ key ∈ readonlyNames, ∃ val, Assigns key val line := by
  have hnames : ∀ key ∈ readonlyNames, isName key = true := by decide
  induction lines generalizing shell with
  | nil => simp [Shell.loadLines]
  | cons line lines ih =>
    obtain ⟨hline, hlines⟩ := List.forall_mem_cons.mp h
    rw [loadLines_cons own shell hline, List.exists_mem_cons_iff]
    cases hassignment : assignment line with
    | none =>
      refine (ih hlines).trans (or_iff_right ?_).symm
      rintro ⟨key, hkey, val, hassigns⟩
      rw [assignment_iff.mpr ⟨hnames key hkey, hassigns⟩] at hassignment
      cases hassignment
    | some pair =>
      obtain ⟨key, val⟩ := pair
      have hread : (∃ key ∈ readonlyNames, ∃ val, Assigns key val line) ↔
          key ∈ readonlyNames := by
        constructor
        · rintro ⟨key', hkey, val', hassigns⟩
          rw [assignment_iff.mpr ⟨hnames key' hkey, hassigns⟩] at hassignment
          cases hassignment
          exact hkey
        · exact fun hkey => ⟨key, hkey, val, (assignment_iff.mp hassignment).2⟩
      dsimp only
      rw [hread]
      cases hassign : shell.assign key (unquote shell.dq shell.sq val) with
      | none => exact iff_of_true rfl (Or.inl (assign_none.mp hassign))
      | some shell' =>
        refine (ih hlines).trans (or_iff_right fun hkey => ?_).symm
        rw [assign_none.mpr hkey] at hassign
        cases hassign

/-- What is promised of a text that is loaded. -/
structure LoadsLiterally (own : OwnNames) (env : Environment) (text : List Char) : Prop where
  /-- where the shell's own names are left alone, the wake ends exactly where a line assigns what
  the shell keeps to itself -/
  ended : (∀ line ∈ fileLines text, LeavesShell line) → (loadAgentEnv own env text = none ↔
    ∃ line ∈ fileLines text, ∃ key ∈ readonlyNames, ∃ val, Assigns key val line)
  /-- otherwise each name has what its last line means, and what it had where no line assigns it -/
  loaded : (∀ line ∈ fileLines text, ∀ key val, isName key = true → Assigns key val line →
    Ordinary key) → ∃ env', loadAgentEnv own env text = some env' ∧ ∀ name, env' name =
      ((((fileLines text).filterMap assignment).reverse.lookup name).map meant).or (env name)
  /-- a line assigns exactly if it is so spelled -/
  spelled : ∀ line key val, assignment line = some (key, val) ↔
    isName key = true ∧ Assigns key val line
  /-- the lines that were written are read -/
  written : ∀ lines : List (List Char), (∀ line ∈ lines, '\n' ∉ line ∧ '\x00' ∉ line) →
    text = lines.flatMap (· ++ ['\n']) → fileLines text = lines
  /-- and every value can be spelled, whatever is in it, in quotes of either kind -/
  quoted : ∀ val, meant ('"' :: (val ++ ['"'])) = val ∧ meant ('\'' :: (val ++ ['\''])) = val

/-- One layer is stripped. -/
theorem unquote_wrapped {dq sq : List Char} {q : Char} (h : dq = [q] ∨ sq = [q])
    (val : List Char) : unquote dq sq (q :: (val ++ [q])) = val := by
  have hlength : (q :: (val ++ [q])).length = val.length + 2 := by simp
  have hlast : (q :: (val ++ [q])).drop (val.length + 2 - 1) = [q] := by simp
  unfold unquote
  rw [hlength, hlast, if_pos]
  · simp
  · refine ⟨by omega, ?_⟩
    rcases h with rfl | rfl
    · exact Or.inl ⟨rfl, rfl⟩
    · exact Or.inr ⟨rfl, rfl⟩

/-- **A credential is data**: what a text loads is spelled in it, character by character. -/
theorem loads_literally (own : OwnNames) (env : Environment) (text : List Char) :
    LoadsLiterally own env text := by
  refine ⟨fun hleaves => loadLines_none own hleaves, fun hordinary => ?_,
    fun _ _ _ => assignment_iff, fun lines hlines htext => htext ▸ fileLines_written hlines,
    fun val => ⟨unquote_wrapped (Or.inl rfl) val, unquote_wrapped (Or.inr rfl) val⟩⟩
  exact ⟨_, loadLines_ordinary own env hordinary, foldl_update _ env⟩

end BasecradleRouter.WakeRunner
