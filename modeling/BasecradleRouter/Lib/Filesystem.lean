/-
# Filesystems with symbolic links

A filesystem is a graph of inodes; a directory's entries lead to others, and a symbolic link holds a
path.  Looking a path up goes through its names one after another, following the links it comes by
while the kernel's bound on them lasts; `stat` follows the last name as well, `lstat` does not.

`Descends` is the part of it in which no link is followed and every step leads down.
-/
import Mathlib.Tactic.Common

namespace BasecradleRouter.Lib

/-- What an inode is. -/
inductive Inode (Id : Type)
  | file
  | dir (entries : List Char → Option Id) (parent : Id)
  | link (target : List Char)

/-- The inodes, and the directories that absolute and relative paths start from. -/
structure Filesystem (Id : Type) where
  inode : Id → Inode Id
  root : Id
  cwd : Id

namespace Filesystem

variable {Id : Type} (fs : Filesystem Id)

/-- Where a path starts. -/
def start (at_ : Id) (path : List Char) : Id := if path.head? = some '/' then fs.root else at_

/-- Going through names from an inode, with `jump` to go on where a link leads. -/
def walk (jump : Id → List (List Char) → Option Id) (follow : Bool) :
    Id → List (List Char) → Option Id
  | at_, [] => some at_
  | at_, name :: rest =>
    match fs.inode at_ with
    | .dir entries parent =>
      if name = [] ∨ name = ['.'] then walk jump follow at_ rest
      else if name = ['.', '.'] then walk jump follow parent rest
      else match entries name with
        | none => none
        | some next =>
          match fs.inode next with
          | .link target =>
            if rest = [] ∧ follow = false then some next
            else if target = [] then none
            else jump (fs.start at_ target) (target.splitOn '/' ++ rest)
          | _ => walk jump follow next rest
    | _ => none

/-- Going through names, over so many links at most. -/
def walkLinks (follow : Bool) : ℕ → Id → List (List Char) → Option Id
  | 0 => fs.walk (fun _ _ => none) follow
  | links + 1 => fs.walk (walkLinks follow links) follow

/-- Looking a path up. -/
def lookup (follow : Bool) (path : List Char) : Option Id :=
  if path = [] then none
  else fs.walkLinks follow 40 (fs.start fs.cwd path) (path.splitOn '/')

def stat (path : List Char) : Option Id := fs.lookup true path

def lstat (path : List Char) : Option Id := fs.lookup false path

def IsLink (id : Id) : Prop := ∃ target, fs.inode id = .link target

def IsDir (id : Id) : Prop := ∃ entries parent, fs.inode id = .dir entries parent

/-- `[[ -L path ]]` -/
def testLink (path : List Char) : Bool :=
  match (fs.lstat path).map fs.inode with
  | some (.link _) => true
  | _ => false

/-- `[[ -d path ]]` -/
def testDir (path : List Char) : Bool :=
  match (fs.stat path).map fs.inode with
  | some (.dir _ _) => true
  | _ => false

/-- `[[ -e path ]]` -/
def testExists (path : List Char) : Bool := (fs.stat path).isSome

/-- Names that lead down from an inode, over directories and no link. -/
inductive Descends : Id → List (List Char) → Id → Prop
  | here {id : Id} : Descends id [] id
  | down {id next last : Id} {entries : List Char → Option Id} {parent : Id} {name : List Char}
      {names : List (List Char)} : fs.inode id = .dir entries parent → entries name = some next →
      ¬ fs.IsLink next → Descends next names last → Descends id (name :: names) last

variable {fs} {path : List Char} {id : Id}

theorem IsDir.not_link (h : fs.IsDir id) : ¬ fs.IsLink id := by
  rintro ⟨target, htarget⟩
  obtain ⟨entries, parent, hdir⟩ := h
  cases htarget.symm.trans hdir

/-! ## 1. Following the last name or not -/

/-- It makes no difference but to a link. -/
theorem walk_follow {jump jump' : Id → List (List Char) → Option Id}
    (hnone : ∀ at_ names, jump at_ names = none → jump' at_ names = none)
    (hsome : ∀ at_ names id, jump at_ names = some id → ¬ fs.IsLink id →
      jump' at_ names = some id) :
    ∀ (names : List (List Char)) (at_ : Id),
      (fs.walk jump false at_ names = none → fs.walk jump' true at_ names = none) ∧
        ∀ id, fs.walk jump false at_ names = some id → ¬ fs.IsLink id →
          fs.walk jump' true at_ names = some id
  | [], at_ => ⟨fun h => absurd h (by simp [walk]), fun _ h _ => h⟩
  | name :: rest, at_ => by
    unfold walk
    split
    · next entries parent hdir =>
      split
      · exact walk_follow hnone hsome rest at_
      · split
        · exact walk_follow hnone hsome rest parent
        · split
          · exact ⟨fun _ => rfl, fun _ h _ => by cases h⟩
          · next next hentry =>
            split
            · next target htarget =>
              rw [if_neg (by simp : ¬ (rest = [] ∧ true = false))]
              split
              · refine ⟨fun h => absurd h (by simp), fun id h hlink => ?_⟩
                cases h
                exact absurd ⟨target, htarget⟩ hlink
              · split
                · exact ⟨fun _ => rfl, fun _ h _ => by cases h⟩
                · exact ⟨hnone _ _, hsome _ _⟩
            · exact walk_follow hnone hsome rest next
    · exact ⟨fun _ => rfl, fun _ h _ => by cases h⟩

theorem walkLinks_follow : ∀ (links : ℕ) (names : List (List Char)) (at_ : Id),
    (fs.walkLinks false links at_ names = none → fs.walkLinks true links at_ names = none) ∧
      ∀ id, fs.walkLinks false links at_ names = some id → ¬ fs.IsLink id →
        fs.walkLinks true links at_ names = some id
  | 0 => walk_follow (fun _ _ _ => rfl) fun _ _ _ h _ => by cases h
  | links + 1 => walk_follow (fun at_ names => (walkLinks_follow links names at_).1)
      fun at_ names => (walkLinks_follow links names at_).2

theorem stat_of_lstat (h : fs.lstat path = some id) (hlink : ¬ fs.IsLink id) :
    fs.stat path = some id := by
  unfold lstat lookup at h
  unfold stat lookup
  split at h
  · cases h
  · next hne =>
    rw [if_neg hne]
    exact (walkLinks_follow _ _ _).2 id h hlink

theorem stat_of_lstat_none (h : fs.lstat path = none) : fs.stat path = none := by
  unfold lstat lookup at h
  unfold stat lookup
  split at h
  · next hempty => rw [if_pos hempty]
  · next hne =>
    rw [if_neg hne]
    exact (walkLinks_follow _ _ _).1 h

theorem testLink_iff : fs.testLink path = true ↔ ∃ id, fs.lstat path = some id ∧ fs.IsLink id := by
  unfold testLink
  cases hstat : fs.lstat path with
  | none => simp
  | some id =>
    rw [Option.map_some]
    split
    · next target heq => exact iff_of_true rfl ⟨id, rfl, target, Option.some.inj heq⟩
    · next hother =>
      refine iff_of_false (by simp) ?_
      rintro ⟨id', hid, target, htarget⟩
      cases hid
      exact hother target (congrArg some htarget)

theorem testDir_iff : fs.testDir path = true ↔ ∃ id, fs.stat path = some id ∧ fs.IsDir id := by
  unfold testDir
  cases hstat : fs.stat path with
  | none => simp
  | some id =>
    rw [Option.map_some]
    split
    · next entries parent heq =>
      exact iff_of_true rfl ⟨id, rfl, entries, parent, Option.some.inj heq⟩
    · next hother =>
      refine iff_of_false (by simp) ?_
      rintro ⟨id', hid, entries, parent, hdir⟩
      cases hid
      exact hother entries parent (congrArg some hdir)

/-- **What the tests tell** of a path that is no link: it is there, and a directory or not. -/
theorem tests_iff {mustDir : Prop} :
    (fs.testLink path = false ∧ fs.testExists path = true ∧
        (mustDir → fs.testDir path = true)) ↔
      ∃ id, fs.lstat path = some id ∧ ¬ fs.IsLink id ∧ (mustDir → fs.IsDir id) := by
  constructor
  · rintro ⟨hlink, hexists, hdir⟩
    cases hstat : fs.lstat path with
    | none =>
      unfold testExists at hexists
      rw [stat_of_lstat_none hstat] at hexists
      cases hexists
    | some id =>
      have hnot : ¬ fs.IsLink id := by
        intro h
        rw [testLink_iff.mpr ⟨id, hstat, h⟩] at hlink
        cases hlink
      refine ⟨id, rfl, hnot, fun hmust => ?_⟩
      obtain ⟨id', hid, hisDir⟩ := testDir_iff.mp (hdir hmust)
      cases (stat_of_lstat hstat hnot).symm.trans hid
      exact hisDir
  · rintro ⟨id, hstat, hnot, hdir⟩
    have hfollowed := stat_of_lstat hstat hnot
    refine ⟨eq_false_of_ne_true fun h => ?_, ?_, fun hmust =>
      testDir_iff.mpr ⟨id, hfollowed, hdir hmust⟩⟩
    · obtain ⟨id', hid, hlink⟩ := testLink_iff.mp h
      cases hstat.symm.trans hid
      exact hnot hlink
    · unfold testExists
      rw [hfollowed]
      rfl

/-! ## 2. Going on from a directory -/

/-- How the walk goes on where a link leads, with so many left. -/
def jumpAt (fs : Filesystem Id) (follow : Bool) : ℕ → Id → List (List Char) → Option Id
  | 0 => fun _ _ => none
  | links + 1 => fs.walkLinks follow links

theorem walkLinks_eq (follow : Bool) (links : ℕ) :
    fs.walkLinks follow links = fs.walk (fs.jumpAt follow links) follow := by
  cases links <;> rfl

theorem walkLinks_cons {follow : Bool} {links : ℕ} {at_ : Id} {name : List Char}
    {rest : List (List Char)} : fs.walkLinks follow links at_ (name :: rest) =
      match fs.inode at_ with
      | .dir entries parent =>
        if name = [] ∨ name = ['.'] then fs.walkLinks follow links at_ rest
        else if name = ['.', '.'] then fs.walkLinks follow links parent rest
        else match entries name with
          | none => none
          | some next =>
            match fs.inode next with
            | .link target =>
              if rest = [] ∧ follow = false then some next
              else if target = [] then none
              else fs.jumpAt follow links (fs.start at_ target) (target.splitOn '/' ++ rest)
            | _ => fs.walkLinks follow links next rest
      | _ => none := by
  simp only [walkLinks_eq]
  rw [walk]

/-- Names that lead to a directory, and then more: the walk goes on from there, with the links it
has left. -/
theorem walkLinks_append {follow : Bool} {last : Id} (hlast : fs.IsDir last) :
    ∀ (links : ℕ) (names : List (List Char)) (at_ : Id),
      fs.walkLinks follow links at_ names = some last → ∃ left, ∀ follow' more, more ≠ [] →
        fs.walkLinks follow' links at_ (names ++ more) = fs.walkLinks follow' left last more
  | links, [], at_, h => by
    rw [walkLinks_eq] at h
    cases h
    exact ⟨links, fun _ _ _ => rfl⟩
  | links, name :: rest, at_, h => by
    have hmore : ∀ {follow' : Bool} {more : List (List Char)}, more ≠ [] →
        ¬ (rest ++ more = [] ∧ follow' = false) :=
      fun hne hempty => hne (List.append_eq_nil_iff.mp hempty.1).2
    simp only [List.cons_append, walkLinks_cons] at h ⊢
    cases hat : fs.inode at_ with
    | file =>
      rw [hat] at h
      cases h
    | link target =>
      rw [hat] at h
      cases h
    | dir entries parent =>
      rw [hat] at h
      dsimp only at h ⊢
      split at h
      · next hself =>
        simp only [if_pos hself]
        exact walkLinks_append hlast links rest at_ h
      · next hself =>
        simp only [if_neg hself]
        split at h
        · next hup =>
          simp only [if_pos hup]
          exact walkLinks_append hlast links rest parent h
        · next hup =>
          simp only [if_neg hup]
          cases hentry : entries name with
          | none =>
            rw [hentry] at h
            cases h
          | some next =>
            rw [hentry] at h
            dsimp only at h ⊢
            cases hnext : fs.inode next with
            | link target =>
              rw [hnext] at h
              dsimp only at h ⊢
              split at h
              · -- A link that is not followed is no directory.
                cases h
                exact absurd ⟨target, hnext⟩ hlast.not_link
              · split at h
                · cases h
                · next htarget =>
                  cases links with
                  | zero => cases h
                  | succ links =>
                    obtain ⟨left, hleft⟩ := walkLinks_append hlast links _ _ h
                    refine ⟨left, fun follow' more hne => ?_⟩
                    rw [if_neg (hmore hne), if_neg htarget, ← List.append_assoc]
                    exact hleft follow' more hne
            | file =>
              rw [hnext] at h
              exact walkLinks_append hlast links rest next h
            | dir entries' parent' =>
              rw [hnext] at h
              exact walkLinks_append hlast links rest next h
termination_by links names => (links, names.length)

/-- Names as they stand in a path, each after a slash. -/
def joined (names : List (List Char)) : List Char := names.flatMap ('/' :: ·)

theorem joined_nil : joined [] = [] := rfl

theorem joined_cons (name : List Char) (names : List (List Char)) :
    joined (name :: names) = '/' :: name ++ joined names := rfl

/-- A name that is neither empty nor one of the dots, and has no slash. -/
structure Plain (name : List Char) : Prop where
  ne_nil : name ≠ []
  slash : '/' ∉ name
  ne_dot : name ≠ ['.']
  ne_dots : name ≠ ['.', '.']

/-- **One name below a directory** is one of its entries. -/
theorem lstat_child {last parent : Id} {entries : List Char → Option Id} {name : List Char}
    (h : fs.lstat path = some last) (hdir : fs.inode last = .dir entries parent)
    (hname : Plain name) : fs.lstat (path ++ '/' :: name) = entries name := by
  unfold lstat lookup at h ⊢
  split at h
  · cases h
  · next hne =>
    have hstart : fs.start fs.cwd (path ++ '/' :: name) = fs.start fs.cwd path := by
      unfold start
      rw [List.head?_append, Option.or_of_isSome (by simpa using hne)]
    rw [if_neg (by simp), hstart, List.splitOn_append_cons_self,
      List.splitOn_eq_singleton hname.slash]
    obtain ⟨left, hleft⟩ := walkLinks_append ⟨entries, parent, hdir⟩ _ _ _ h
    rw [hleft false [name] (by simp), walkLinks_eq]
    unfold walk
    rw [hdir]
    dsimp only
    rw [if_neg (by simp [hname.ne_nil, hname.ne_dot]), if_neg hname.ne_dots]
    cases hentry : entries name with
    | none => rfl
    | some next =>
      dsimp only
      split
      · rw [if_pos ⟨rfl, rfl⟩]
      · rfl

/-- Each beginning of the names leads, below a path, to something that is no link, and all but the
whole to a directory. -/
def Solid (fs : Filesystem Id) (path : List Char) (names : List (List Char)) : Prop :=
  ∀ n, 0 < n → n ≤ names.length → ∃ id, fs.lstat (path ++ joined (names.take n)) = some id ∧
    ¬ fs.IsLink id ∧ (n < names.length → fs.IsDir id)

theorem solid_cons {name : List Char} {names : List (List Char)} :
    fs.Solid path (name :: names) ↔
      (∃ id, fs.lstat (path ++ '/' :: name) = some id ∧ ¬ fs.IsLink id ∧
        (names ≠ [] → fs.IsDir id)) ∧ fs.Solid (path ++ '/' :: name) names := by
  have hjoined : ∀ n, path ++ joined ((name :: names).take (n + 1)) =
      path ++ '/' :: name ++ joined (names.take n) := by
    intro n
    rw [List.take_succ_cons, joined_cons, ← List.append_assoc]
  have hfirst : path ++ joined ((name :: names).take 1) = path ++ '/' :: name := by
    rw [hjoined 0, List.take_zero]
    exact List.append_nil _
  constructor
  · intro h
    constructor
    · obtain ⟨id, hstat, hlink, hdir⟩ := h 1 Nat.one_pos (by simp)
      refine ⟨id, hfirst ▸ hstat, hlink, fun hne => hdir ?_⟩
      have hpos := List.length_pos_iff.mpr hne
      rw [List.length_cons]
      omega
    · intro n hpos hn
      obtain ⟨id, hstat, hlink, hdir⟩ := h (n + 1) (Nat.succ_pos n) (Nat.succ_le_succ hn)
      exact ⟨id, hjoined n ▸ hstat, hlink, fun hlt => hdir (Nat.succ_lt_succ hlt)⟩
  · rintro ⟨⟨id, hstat, hlink, hdir⟩, hrest⟩ n hpos hn
    rcases Nat.lt_or_ge 1 n with hlt | hle
    · obtain ⟨m, rfl⟩ : ∃ m, n = m + 1 := ⟨n - 1, by omega⟩
      obtain ⟨id, hstat, hlink, hdir⟩ := hrest m (by omega) (Nat.le_of_succ_le_succ hn)
      exact ⟨id, by rw [hjoined]; exact hstat, hlink, fun hlt => hdir (Nat.lt_of_succ_lt_succ hlt)⟩
    · obtain rfl : n = 1 := by omega
      refine ⟨id, by rw [hfirst]; exact hstat, hlink, fun hlt => hdir ?_⟩
      rintro rfl
      simp at hlt

/-- **What the beginnings show of the whole**: the names lead down from the directory, over no
link. -/
theorem Solid.descends : ∀ {names : List (List Char)} {path : List Char} {top : Id},
    fs.Solid path names → (∀ name ∈ names, Plain name) → fs.lstat path = some top → fs.IsDir top →
      ∃ last, fs.Descends top names last ∧ fs.lstat (path ++ joined names) = some last
  | [], path, top, _, _, htop, _ =>
    ⟨top, .here, by rw [joined_nil, List.append_nil]; exact htop⟩
  | name :: names, path, top, h, hplain, htop, hdir => by
    obtain ⟨⟨next, hstat, hlink, hnext⟩, hrest⟩ := solid_cons.mp h
    obtain ⟨entries, parent, hinode⟩ := hdir
    have hentry : entries name = some next :=
      (lstat_child htop hinode (hplain name List.mem_cons_self)).symm.trans hstat
    have hjoined : path ++ joined (name :: names) = path ++ '/' :: name ++ joined names := by
      rw [joined_cons, ← List.append_assoc]
    rw [hjoined]
    cases names with
    | nil =>
      refine ⟨next, .down hinode hentry hlink .here, ?_⟩
      rw [joined_nil, List.append_nil]
      exact hstat
    | cons name' names =>
      obtain ⟨last, hdescends, hlast⟩ := hrest.descends
        (fun n hn => hplain n (List.mem_cons_of_mem _ hn)) hstat (hnext (by simp))
      exact ⟨last, .down hinode hentry hlink hdescends, hlast⟩

/-! ## 3. Paths as names -/

/-- An absolute path with no trailing and no doubled slash. -/
structure Canonical (path : List Char) : Prop where
  absolute : ['/'] <+: path
  trailing : ¬ ['/'] <:+ path
  doubled : ¬ ['/', '/'] <:+: path

theorem joined_append (names more : List (List Char)) :
    joined (names ++ more) = joined names ++ joined more := List.flatMap_append

theorem joined_splitOn : ∀ text : List Char, joined (text.splitOn '/') = '/' :: text
  | [] => by simp [joined]
  | c :: text => by
    have ih := joined_splitOn text
    rw [List.splitOn_cons_eq_if_modifyHead]
    split
    · next hslash =>
      rw [joined_cons, ih, beq_iff_eq.mp hslash]
      rfl
    · obtain ⟨name, names, hsplit⟩ := List.exists_cons_of_ne_nil (List.splitOn_ne_nil '/' text)
      rw [hsplit, joined_cons] at ih
      rw [hsplit, List.modifyHead_cons, joined_cons]
      simp only [List.cons_append, List.cons.injEq, true_and] at ih ⊢
      exact ih

theorem slash_not_mem : ∀ (text : List Char), ∀ name ∈ text.splitOn '/', '/' ∉ name
  | [], name, h => by
    rw [List.splitOn_nil, List.mem_singleton] at h
    rw [h]
    exact List.not_mem_nil
  | c :: text, name, h => by
    rw [List.splitOn_cons_eq_if_modifyHead] at h
    split at h
    · rcases List.mem_cons.mp h with rfl | h
      · exact List.not_mem_nil
      · exact slash_not_mem text name h
    · next hslash =>
      have ih := slash_not_mem text
      obtain ⟨first, names, hsplit⟩ := List.exists_cons_of_ne_nil (List.splitOn_ne_nil '/' text)
      rw [hsplit] at h ih
      rcases List.mem_cons.mp h with rfl | h
      · rw [List.mem_cons, not_or]
        exact ⟨fun heq => hslash (beq_iff_eq.mpr heq.symm), ih first List.mem_cons_self⟩
      · exact ih name (List.mem_cons_of_mem _ h)

theorem splitOn_name_joined : ∀ (names : List (List Char)) (name : List Char), '/' ∉ name →
    (∀ n ∈ names, '/' ∉ n) → (name ++ joined names).splitOn '/' = name :: names
  | [], name, hname, _ => by
    rw [joined_nil, List.append_nil, List.splitOn_eq_singleton hname]
  | next :: names, name, hname, hnames => by
    rw [joined_cons, List.cons_append, List.splitOn_append_cons_self,
      List.splitOn_eq_singleton hname, splitOn_name_joined names next
        (hnames next List.mem_cons_self) fun n hn => hnames n (List.mem_cons_of_mem _ hn)]
    rfl

theorem splitOn_joined {names : List (List Char)} (h : ∀ n ∈ names, '/' ∉ n) :
    (joined names).splitOn '/' = [] :: names :=
  splitOn_name_joined names [] List.not_mem_nil h

/-- What stands between two slashes, or after the last one, is a name. -/
theorem mem_names {names : List (List Char)} {text : List Char} (h : ∀ n ∈ names, '/' ∉ n)
    (htext : '/' ∉ text) :
    text ∈ names ↔ '/' :: text <:+ joined names ∨ '/' :: text ++ ['/'] <:+: joined names := by
  have hcut : ∀ (u v : List (List Char)), u ≠ [] → u ++ text :: v = [] :: names →
      text ∈ names := by
    intro u v hu heq
    obtain ⟨first, u, rfl⟩ := List.exists_cons_of_ne_nil hu
    rw [← List.tail_eq_of_cons_eq heq]
    exact List.mem_append_right _ List.mem_cons_self
  constructor
  · intro hmem
    obtain ⟨u, v, rfl⟩ := List.append_of_mem hmem
    rw [joined_append, joined_cons]
    cases v with
    | nil => exact Or.inl ⟨joined u, by rw [joined_nil, List.append_nil]⟩
    | cons next v =>
      refine Or.inr ⟨joined u, next ++ joined v, ?_⟩
      rw [joined_cons]
      simp only [List.append_assoc, List.cons_append, List.nil_append]
  · rintro (⟨u, hu⟩ | ⟨u, v, hu⟩)
    · have hsplit := splitOn_joined h
      rw [← hu, List.splitOn_append_cons_self, List.splitOn_eq_singleton htext] at hsplit
      exact hcut _ [] (List.splitOn_ne_nil _ _) hsplit
    · have hsplit := splitOn_joined h
      have hjoined : u ++ ('/' :: text ++ ['/']) ++ v = u ++ '/' :: (text ++ '/' :: v) := by
        simp only [List.append_assoc, List.cons_append, List.nil_append]
      rw [← hu, hjoined, List.splitOn_append_cons_self, List.splitOn_append_cons_self,
        List.splitOn_eq_singleton htext] at hsplit
      exact hcut _ _ (List.splitOn_ne_nil _ _) hsplit

/-- **A canonical path** is a row of names. -/
theorem canonical_iff {path : List Char} : Canonical path ↔
    ∃ names, names ≠ [] ∧ (∀ n ∈ names, n ≠ [] ∧ '/' ∉ n) ∧ path = joined names := by
  have hmem : ∀ {names : List (List Char)}, (∀ n ∈ names, '/' ∉ n) →
      ([] ∈ names ↔ ['/'] <:+ joined names ∨ ['/', '/'] <:+: joined names) :=
    fun h => mem_names h List.not_mem_nil
  constructor
  · rintro ⟨habsolute, htrailing, hdoubled⟩
    obtain ⟨text, rfl⟩ := habsolute
    have hslash := slash_not_mem text
    have hjoined : joined (text.splitOn '/') = ['/'] ++ text := joined_splitOn text
    refine ⟨text.splitOn '/', List.splitOn_ne_nil _ _, fun n hn => ⟨?_, hslash n hn⟩, hjoined.symm⟩
    rintro rfl
    have hempty := (hmem hslash).mp hn
    rw [hjoined] at hempty
    rcases hempty with h | h
    · exact htrailing h
    · exact hdoubled h
  · rintro ⟨names, hne, hnames, rfl⟩
    have hnone : ¬ [] ∈ names := fun h => (hnames [] h).1 rfl
    rw [hmem fun n hn => (hnames n hn).2, not_or] at hnone
    obtain ⟨name, names, rfl⟩ := List.exists_cons_of_ne_nil hne
    exact ⟨⟨name ++ joined names, rfl⟩, hnone.1, hnone.2⟩

end Filesystem

end BasecradleRouter.Lib
