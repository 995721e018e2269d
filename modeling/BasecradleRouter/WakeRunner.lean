/-
# The privileged path gate

`confined_path` runs as root on paths below an account's home, which that account can rewrite.  It
goes down from the trusted root one component at a time, with the shell's pattern operators, and
refuses what is a link, is not there, or is no directory where more is to follow.

`confinedPath_exact` says for every filesystem and every pair of texts that it lets a path through
exactly if the path is confined, and that what it prints then leads down from the root over no link.
-/
import BasecradleRouter.Lib.Checked
import BasecradleRouter.Lib.Filesystem
import BasecradleRouter.Lib.Glob

namespace BasecradleRouter.WakeRunner

open BasecradleRouter.Lib BasecradleRouter.Lib.Filesystem

/-! ## 1. The gate -/

/-- `$path != /* || $path == */ || $path == *//*` -/
def notCanonical (path : List Char) : Bool :=
  !(Glob.starts ['/']).fits path || (Glob.ends ['/']).fits path ||
    (Glob.contains ['/', '/']).fits path

/-- `$path == */segment || $path == */segment/*` -/
def hasSegment (segment path : List Char) : Bool :=
  (Glob.ends ('/' :: segment)).fits path || (Glob.contains ('/' :: segment ++ ['/'])).fits path

/-- `wake-runner: refusing: …`, as `printf` writes it. -/
def refusing (parts : List (List Char)) : List Char :=
  "wake-runner: refusing: ".toList ++ parts.flatten ++ ['\n']

/-- `component=${rest%%/*}`, and what is left of `rest` after it. -/
def nextComponent (rest : List Char) : List Char × List Char :=
  let component := Glob.removeLongestSuffix (Glob.starts ['/']) rest
  (component, if component = rest then []
    else Glob.removeShortestPrefix (Glob.ends ['/']) rest)

theorem takeWhile_component {component : List Char} (h : '/' ∉ component) (rest : List Char) :
    (component ++ rest).takeWhile (· != '/') = component ++ rest.takeWhile (· != '/') := by
  refine List.takeWhile_append_of_pos fun c hc => bne_iff_ne.mpr ?_
  rintro rfl
  exact h hc

/-- A component ends at the first slash. -/
theorem nextComponent_slash {component : List Char} (h : '/' ∉ component) (rest : List Char) :
    nextComponent (component ++ '/' :: rest) = (component, rest) := by
  have htake : (component ++ '/' :: rest).takeWhile (· != '/') = component := by
    rw [takeWhile_component h, List.takeWhile_cons_of_neg (by simp), List.append_nil]
  unfold nextComponent
  dsimp only
  rw [Glob.removeLongestSuffix_char, htake, if_neg (by simp), Glob.removeShortestPrefix_char h]

/-- Or it is the last. -/
theorem nextComponent_last {component : List Char} (h : '/' ∉ component) :
    nextComponent component = (component, []) := by
  have htake := takeWhile_component h []
  rw [List.takeWhile_nil, List.append_nil] at htake
  unfold nextComponent
  dsimp only
  rw [Glob.removeLongestSuffix_char, htake, if_pos rfl]

/-- What is left is shorter. -/
theorem nextComponent_lt {rest : List Char} (h : rest ≠ []) :
    (nextComponent rest).2.length < rest.length := by
  by_cases hslash : '/' ∈ rest
  · obtain ⟨component, left, rfl, hcomponent⟩ := List.eq_append_cons_of_mem hslash
    rw [nextComponent_slash hcomponent, List.length_append, List.length_cons]
    dsimp only
    omega
  · rw [nextComponent_last hslash]
    exact List.length_pos_iff.mpr h

variable {Id : Type} (fs : Filesystem Id) (label root path : List Char)

/-- The loop of `confined_path`. -/
def walkDown (walked rest : List Char) : Except (List Char) Unit :=
  if _h : rest = [] then .ok ()
  else
    let component := (nextComponent rest).1
    if component = ['.'] ∨ component = ['.', '.'] then
      .error (refusing [label, [' '], path, " has a ".toList, component, " segment".toList])
    else
      let walked := walked ++ '/' :: component
      let shown := Glob.removeShortestPrefix (Glob.literal (root ++ ['/'])) walked
      if fs.testLink walked then
        .error (refusing [label, ": component ".toList, shown, " under ".toList, root,
          " is a symlink; the privileged side does not follow it".toList])
      else if !fs.testExists walked then
        .error (refusing [label, ": ".toList, shown, " does not exist under ".toList, root])
      else if (nextComponent rest).2 ≠ [] ∧ fs.testDir walked = false then
        .error (refusing [label, ": ".toList, shown, " under ".toList, root,
          " is not a directory".toList])
      else walkDown walked (nextComponent rest).2
termination_by rest.length
decreasing_by exact nextComponent_lt _h

/-- `confined_path`: what it prints, or its line on standard error where it returns 1. -/
def confinedPath : Except (List Char) (List Char) := do
  if notCanonical root || (hasSegment ['.'] root || hasSegment ['.', '.'] root) then
    .error (refusing [label, ": trusted root ".toList, root,
      " is not a canonical absolute path".toList])
  else if fs.testLink root || !fs.testDir root then
    .error (refusing [label, ": trusted root ".toList, root, " is not a real directory".toList])
  else if notCanonical path then
    .error (refusing [label, [' '], path, " is not a canonical absolute path".toList])
  else if !Glob.fits (Glob.literal (root ++ ['/']) ++ [.one, .many]) path then
    .error (refusing [label, [' '], path, " is not under ".toList, root])
  else
    walkDown fs label root path root (Glob.removeShortestPrefix (Glob.literal (root ++ ['/'])) path)
    return path

/-! ## 2. What it lets through -/

/-- A path that is confined to a root: both canonical, the root a directory and no link, and below
it nothing but what is there, is no link, and is a directory where the path goes on. -/
structure Confined (fs : Filesystem Id) (root path : List Char) : Prop where
  root_canonical : Canonical root
  root_plain : ∀ segment ∈ root.splitOn '/', segment ≠ ['.'] ∧ segment ≠ ['.', '.']
  root_real : ∃ top, fs.lstat root = some top ∧ fs.IsDir top
  path_canonical : Canonical path
  below : ∃ names, names ≠ [] ∧ path = root ++ joined names ∧ (∀ name ∈ names, Plain name) ∧
    fs.Solid root names

variable {fs label root path} {names : List (List Char)}

theorem notCanonical_iff : notCanonical path = false ↔ Canonical path := by
  unfold notCanonical
  rw [Bool.or_eq_false_iff, Bool.or_eq_false_iff, Bool.not_eq_eq_eq_not, Bool.not_false,
    ← Bool.not_eq_true, ← Bool.not_eq_true, Glob.fits_starts, Glob.fits_ends, Glob.fits_contains]
  constructor
  · rintro ⟨⟨habsolute, htrailing⟩, hdoubled⟩
    exact ⟨habsolute, htrailing, hdoubled⟩
  · rintro ⟨habsolute, htrailing, hdoubled⟩
    exact ⟨⟨habsolute, htrailing⟩, hdoubled⟩

theorem hasSegment_iff {segment : List Char} (hnames : ∀ n ∈ names, '/' ∉ n)
    (hsegment : '/' ∉ segment) : hasSegment segment (joined names) = true ↔ segment ∈ names := by
  unfold hasSegment
  rw [Bool.or_eq_true, Glob.fits_ends, Glob.fits_contains, mem_names hnames hsegment]

/-- The root's own dots. -/
theorem root_plain_iff (h : Canonical root) :
    (hasSegment ['.'] root || hasSegment ['.', '.'] root) = false ↔
      ∀ segment ∈ root.splitOn '/', segment ≠ ['.'] ∧ segment ≠ ['.', '.'] := by
  obtain ⟨names, -, hnames, rfl⟩ := canonical_iff.mp h
  have hslash : ∀ n ∈ names, '/' ∉ n := fun n hn => (hnames n hn).2
  rw [Bool.or_eq_false_iff, ← Bool.not_eq_true, ← Bool.not_eq_true,
    hasSegment_iff hslash (by decide), hasSegment_iff hslash (by decide), splitOn_joined hslash]
  constructor
  · rintro ⟨hdot, hdots⟩ segment hmem
    rcases List.mem_cons.mp hmem with rfl | hmem
    · exact ⟨by decide, by decide⟩
    · exact ⟨fun heq => hdot (heq ▸ hmem), fun heq => hdots (heq ▸ hmem)⟩
  · intro hplain
    exact ⟨fun hmem => (hplain _ (List.mem_cons_of_mem _ hmem)).1 rfl,
      fun hmem => (hplain _ (List.mem_cons_of_mem _ hmem)).2 rfl⟩

theorem root_real_iff : (fs.testLink root || !fs.testDir root) = false ↔
    ∃ top, fs.lstat root = some top ∧ fs.IsDir top := by
  rw [Bool.or_eq_false_iff, Bool.not_eq_eq_eq_not, Bool.not_false]
  constructor
  · rintro ⟨hlink, hdir⟩
    have hexists : fs.testExists root = true := by
      obtain ⟨id, hstat, -⟩ := testDir_iff.mp hdir
      unfold testExists
      rw [hstat]
      rfl
    obtain ⟨top, hstat, -, htop⟩ := tests_iff.mp ⟨hlink, hexists, fun _ : True => hdir⟩
    exact ⟨top, hstat, htop trivial⟩
  · rintro ⟨top, hstat, htop⟩
    obtain ⟨hlink, -, hdir⟩ := tests_iff.mpr ⟨top, hstat, htop.not_link, fun _ : True => htop⟩
    exact ⟨hlink, hdir trivial⟩

/-- A canonical path strictly below a canonical root goes on with names. -/
theorem below_iff (hroot : Canonical root) (hpath : Canonical path) :
    Glob.fits (Glob.literal (root ++ ['/']) ++ [.one, .many]) path = true ↔
      ∃ names, names ≠ [] ∧ (∀ n ∈ names, n ≠ [] ∧ '/' ∉ n) ∧ path = root ++ joined names := by
  rw [Glob.fits_literal_append]
  constructor
  · rintro ⟨text, rfl, htext⟩
    obtain ⟨rootNames, -, hrootNames, rfl⟩ := canonical_iff.mp hroot
    obtain ⟨pathNames, -, hpathNames, hjoined⟩ := canonical_iff.mp hpath
    have hslash : ∀ n ∈ rootNames, '/' ∉ n := fun n hn => (hrootNames n hn).2
    have hsplit := congrArg (List.splitOn '/') hjoined
    rw [splitOn_joined fun n hn => (hpathNames n hn).2, List.append_assoc, List.cons_append,
      List.nil_append, List.splitOn_append_cons_self, splitOn_joined hslash, List.cons_append,
      List.cons.injEq] at hsplit
    refine ⟨text.splitOn '/', List.splitOn_ne_nil _ _, fun n hn => hpathNames n ?_, ?_⟩
    · rw [← hsplit.2]
      exact List.mem_append_right _ hn
    · rw [joined_splitOn, List.append_assoc]
      rfl
  · rintro ⟨names, hne, hnames, rfl⟩
    obtain ⟨name, names, rfl⟩ := List.exists_cons_of_ne_nil hne
    obtain ⟨hname, -⟩ := hnames name List.mem_cons_self
    obtain ⟨c, name, rfl⟩ := List.exists_cons_of_ne_nil hname
    refine ⟨c :: name ++ joined names, ?_, ?_⟩
    · rw [joined_cons, List.append_assoc]
      rfl
    · exact Glob.fits_one.mpr ⟨c, name ++ joined names, rfl, Glob.fits_star⟩

/-- What is left of a path after its root. -/
def unslashed : List (List Char) → List Char
  | [] => []
  | name :: names => name ++ joined names

theorem nextComponent_unslashed {name : List Char} (hname : '/' ∉ name)
    (names : List (List Char)) :
    nextComponent (unslashed (name :: names)) = (name, unslashed names) := by
  cases names with
  | nil =>
    show nextComponent (name ++ joined []) = (name, [])
    rw [joined_nil, List.append_nil, nextComponent_last hname]
  | cons next names => exact nextComponent_slash hname _

theorem unslashed_ne_nil (hnames : ∀ n ∈ names, n ≠ [] ∧ '/' ∉ n) :
    unslashed names ≠ [] ↔ names ≠ [] := by
  cases names with
  | nil => exact iff_of_false (fun h => h rfl) fun h => h rfl
  | cons name names =>
    refine iff_of_true (fun h => ?_) (by simp)
    exact (hnames name List.mem_cons_self).1 (List.append_eq_nil_iff.mp h).1

/-- One turn of the loop. -/
theorem walkDown_turn {walked rest component left : List Char} (hrest : rest ≠ [])
    (hnext : nextComponent rest = (component, left)) :
    walkDown fs label root path walked rest = .ok () ↔
      (component ≠ ['.'] ∧ component ≠ ['.', '.']) ∧
      (fs.testLink (walked ++ '/' :: component) = false ∧
        fs.testExists (walked ++ '/' :: component) = true ∧
        (left ≠ [] → fs.testDir (walked ++ '/' :: component) = true)) ∧
      walkDown fs label root path (walked ++ '/' :: component) left = .ok () := by
  conv_lhs => unfold walkDown
  rw [dif_neg hrest, hnext]
  dsimp only
  rw [← not_or]
  split
  · next hdots => exact iff_of_false (by simp) fun h => h.1 hdots
  · next hdots =>
    split
    · next hlink => exact iff_of_false (by simp) fun h => by simp [hlink] at h
    · next hlink =>
      split
      · next hexists => exact iff_of_false (by simp) fun h => by simp [h.2.1.2.1] at hexists
      · next hexists =>
        split
        · next hdir =>
          refine iff_of_false (by simp) fun h => ?_
          rw [h.2.1.2.2 hdir.1] at hdir
          cases hdir.2
        · next hdir =>
          refine ⟨fun h => ⟨hdots, ⟨eq_false_of_ne_true hlink, by simpa using hexists,
            fun hleft => ?_⟩, h⟩, fun h => h.2.2⟩
          exact eq_true_of_ne_false fun hnot => hdir ⟨hleft, hnot⟩

/-- **The loop** comes through exactly if no component is a dot and the way is solid. -/
theorem walkDown_ok : ∀ {names : List (List Char)} {walked : List Char},
    (∀ n ∈ names, n ≠ [] ∧ '/' ∉ n) →
      (walkDown fs label root path walked (unslashed names) = .ok () ↔
        (∀ n ∈ names, n ≠ ['.'] ∧ n ≠ ['.', '.']) ∧ fs.Solid walked names)
  | [], walked, _ => by
    have hdone : walkDown fs label root path walked (unslashed []) = .ok () := by
      unfold walkDown
      exact dif_pos rfl
    refine iff_of_true hdone ⟨fun _ h => absurd h List.not_mem_nil, fun n hpos hn => ?_⟩
    rw [List.length_nil] at hn
    omega
  | name :: names, walked, hnames => by
    obtain ⟨hname, hslash⟩ := hnames name List.mem_cons_self
    have hrest : ∀ n ∈ names, n ≠ [] ∧ '/' ∉ n := fun n hn => hnames n (List.mem_cons_of_mem _ hn)
    have hne : unslashed (name :: names) ≠ [] := (unslashed_ne_nil hnames).mpr (by simp)
    rw [walkDown_turn hne (nextComponent_unslashed hslash names), tests_iff, walkDown_ok hrest,
      solid_cons, unslashed_ne_nil hrest, List.forall_mem_cons]
    constructor
    · rintro ⟨hdots, hfirst, hdots', hsolid⟩
      exact ⟨⟨hdots, hdots'⟩, hfirst, hsolid⟩
    · rintro ⟨⟨hdots, hdots'⟩, hfirst, hsolid⟩
      exact ⟨hdots, hfirst, hdots', hsolid⟩

/-- What the gate lets through, test by test. -/
theorem confinedPath_ok {out : List Char} : confinedPath fs label root path = .ok out ↔
    out = path ∧ notCanonical root = false ∧
      (hasSegment ['.'] root || hasSegment ['.', '.'] root) = false ∧
      (fs.testLink root || !fs.testDir root) = false ∧ notCanonical path = false ∧
      Glob.fits (Glob.literal (root ++ ['/']) ++ [.one, .many]) path = true ∧
      walkDown fs label root path root
        (Glob.removeShortestPrefix (Glob.literal (root ++ ['/'])) path) = .ok () := by
  unfold confinedPath
  split
  · next hroot =>
    refine iff_of_false (by simp) ?_
    rintro ⟨-, hcanonical, hdots, -⟩
    rw [hcanonical, hdots] at hroot
    cases hroot
  next hroot =>
  rw [Bool.not_eq_true, Bool.or_eq_false_iff] at hroot
  split
  · next hreal =>
    refine iff_of_false (by simp) ?_
    rintro ⟨-, -, -, hreal', -⟩
    rw [hreal'] at hreal
    cases hreal
  next hreal =>
  split
  · next hpath =>
    refine iff_of_false (by simp) ?_
    rintro ⟨-, -, -, -, hpath', -⟩
    rw [hpath'] at hpath
    cases hpath
  next hpath =>
  split
  · next hbelow =>
    refine iff_of_false (by simp) ?_
    rintro ⟨-, -, -, -, -, hbelow', -⟩
    rw [hbelow'] at hbelow
    cases hbelow
  next hbelow =>
  rw [bind_eq_ok]
  constructor
  · rintro ⟨⟨⟩, hwalk, hout⟩
    cases hout
    exact ⟨rfl, hroot.1, hroot.2, eq_false_of_ne_true hreal, eq_false_of_ne_true hpath,
      by simpa using hbelow, hwalk⟩
  · rintro ⟨rfl, -, -, -, -, -, hwalk⟩
    exact ⟨(), hwalk, rfl⟩

theorem removeRoot (root : List Char) {names : List (List Char)} (hne : names ≠ []) :
    Glob.removeShortestPrefix (Glob.literal (root ++ ['/'])) (root ++ joined names) =
      unslashed names := by
  obtain ⟨name, names, rfl⟩ := List.exists_cons_of_ne_nil hne
  have hsplit : root ++ joined (name :: names) = root ++ ['/'] ++ (name ++ joined names) := by
    rw [joined_cons, List.append_assoc]
    rfl
  rw [hsplit, Glob.removeShortestPrefix_literal]
  rfl

/-- The gate, in one text for what it prints. -/
theorem confinedPath_iff {out : List Char} : confinedPath fs label root path = .ok out ↔
    out = path ∧ Confined fs root path := by
  rw [confinedPath_ok]
  refine and_congr_right fun _ => ⟨?_, ?_⟩
  · rintro ⟨hroot, hdots, hreal, hpath, hbelow, hwalk⟩
    have hroot := notCanonical_iff.mp hroot
    have hpath := notCanonical_iff.mp hpath
    obtain ⟨names, hne, hnames, rfl⟩ := (below_iff hroot hpath).mp hbelow
    rw [removeRoot root hne, walkDown_ok hnames] at hwalk
    refine ⟨hroot, (root_plain_iff hroot).mp hdots, root_real_iff.mp hreal, hpath, names, hne, rfl,
      fun name hname => ?_, hwalk.2⟩
    exact ⟨(hnames name hname).1, (hnames name hname).2, (hwalk.1 name hname).1,
      (hwalk.1 name hname).2⟩
  · rintro ⟨hroot, hdots, hreal, hpath, names, hne, rfl, hplain, hsolid⟩
    have hnames : ∀ n ∈ names, n ≠ [] ∧ '/' ∉ n :=
      fun n hn => ⟨(hplain n hn).ne_nil, (hplain n hn).slash⟩
    refine ⟨notCanonical_iff.mpr hroot, (root_plain_iff hroot).mpr hdots, root_real_iff.mpr hreal,
      notCanonical_iff.mpr hpath, (below_iff hroot hpath).mpr ⟨names, hne, hnames, rfl⟩, ?_⟩
    rw [removeRoot root hne, walkDown_ok hnames]
    exact ⟨fun n hn => ⟨(hplain n hn).ne_dot, (hplain n hn).ne_dots⟩, hsolid⟩

/-- The whole of a solid way is no link. -/
theorem solid_last (hne : names ≠ []) (h : fs.Solid root names) :
    ∃ last, fs.lstat (root ++ joined names) = some last ∧ ¬ fs.IsLink last := by
  obtain ⟨last, hstat, hlink, -⟩ := h names.length (List.length_pos_iff.mpr hne) le_rfl
  rw [List.take_length] at hstat
  exact ⟨last, hstat, hlink⟩

/-- **The gate is exact.**  It lets a path through exactly if the path is confined, and prints it
unchanged; following that leads down from the root over no link. -/
theorem confinedPath_exact (fs : Filesystem Id) (label root path : List Char) :
    ((∃ out, confinedPath fs label root path = .ok out) ↔ Confined fs root path) ∧
      ∀ out, confinedPath fs label root path = .ok out → out = path ∧ ∃ names top last,
        names ≠ [] ∧ path = root ++ joined names ∧ fs.lstat root = some top ∧
        fs.Descends top names last ∧ fs.stat out = some last := by
  constructor
  · constructor
    · rintro ⟨out, h⟩
      exact (confinedPath_iff.mp h).2
    · exact fun h => ⟨path, confinedPath_iff.mpr ⟨rfl, h⟩⟩
  · intro out h
    obtain ⟨rfl, hconfined⟩ := confinedPath_iff.mp h
    obtain ⟨top, htop, hdir⟩ := hconfined.root_real
    obtain ⟨names, hne, heq, hplain, hsolid⟩ := hconfined.below
    obtain ⟨last, hdescends, hlast⟩ := hsolid.descends hplain htop hdir
    obtain ⟨last', hlast', hlink⟩ := solid_last hne hsolid
    cases hlast.symm.trans hlast'
    refine ⟨rfl, names, top, last, hne, heq, htop, hdescends, ?_⟩
    rw [heq]
    exact stat_of_lstat hlast hlink

end BasecradleRouter.WakeRunner
