/-
# Data enclosed within a line

`findall` is `re.findall` of an expression `opening(\{.*\})closing` whose two ends are literal text
without a newline.  As `.` matches no newline either, each match lies within a line.  The expression
is greedy: of the texts in braces that may be what is enclosed, the longest is (`longest`).

So whatever stands on the lines before, what a last line encloses is the last match:
`findall_last_line`.
-/
import BasecradleRouter.Lib.PyText

namespace BasecradleRouter.Lib.Enclosed

def newline : CodePoint := '\n'

/-- The literal ends of an expression. -/
structure Expression where
  opening : PyText
  closing : PyText

/-- `\{.*\}` -/
def inBraces (text : PyText) : Bool :=
  2 ≤ text.length && text.head? == some (.ofChar '{') && text.getLast? == some (.ofChar '}')

/-- The longest of a line's first `n` characters or fewer that `closing` follows. -/
def longest (closing line : PyText) : ℕ → Option PyText
  | 0 => none
  | n + 1 =>
    if inBraces (line.take (n + 1)) && closing.isPrefixOf (line.drop (n + 1)) then
      some (line.take (n + 1))
    else longest closing line n

/-- The rest of the line. -/
def lineOf (text : PyText) : PyText := text.takeWhile (· ≠ newline)

namespace Expression

/-- What a match at the start of a text encloses. -/
def matchAt (e : Expression) (text : PyText) : Option PyText :=
  if e.opening.isPrefixOf (lineOf text) then
    let line := (lineOf text).drop e.opening.length
    longest e.closing line line.length
  else none

/-- What the matches of a text enclose, after `skip` characters of the last one. -/
def findallFrom (e : Expression) : ℕ → PyText → List PyText
  | _, [] => []
  | skip + 1, _ :: cs => findallFrom e skip cs
  | 0, c :: cs =>
    match e.matchAt (c :: cs) with
    | some data =>
      data :: findallFrom e (e.opening.length + data.length + e.closing.length - 1) cs
    | none => findallFrom e 0 cs

def findall (e : Expression) (text : PyText) : List PyText := e.findallFrom 0 text

end Expression

variable {e : Expression} {closing line text pre post data : PyText}

/-- What is enclosed is in braces, and the line goes on with `closing`. -/
theorem longest_some : ∀ {n : ℕ}, longest closing line n = some data →
    inBraces data = true ∧ data.length + closing.length ≤ line.length
  | 0, h => by cases h
  | n + 1, h => by
    rw [longest] at h
    split at h
    · next hmatch =>
      rw [Bool.and_eq_true, List.isPrefixOf_iff_prefix] at hmatch
      have hlength := hmatch.2.length_le
      cases h
      rw [List.length_drop] at hlength
      rw [List.length_take]
      have hbraces := hmatch.1
      simp only [inBraces, Bool.and_eq_true, decide_eq_true_eq, List.length_take] at hbraces
      exact ⟨hmatch.1, by omega⟩
    · exact longest_some h

theorem two_le_of_inBraces (h : inBraces data = true) : 2 ≤ data.length := by
  simp only [inBraces, Bool.and_eq_true, decide_eq_true_eq] at h
  exact h.1.1

/-- A match lies within its line. -/
theorem matchAt_within (h : e.matchAt text = some data) :
    2 ≤ data.length ∧
      e.opening.length + data.length + e.closing.length ≤ (lineOf text).length := by
  unfold Expression.matchAt at h
  split at h
  · next hopening =>
    have hlength := (List.isPrefixOf_iff_prefix.mp hopening).length_le
    obtain ⟨hbraces, hdata⟩ := longest_some h
    rw [List.length_drop] at hdata
    exact ⟨two_le_of_inBraces hbraces, by omega⟩
  · cases h

theorem length_lineOf_le (pre post : PyText) :
    (lineOf (pre ++ newline :: post)).length ≤ pre.length := by
  induction pre with
  | nil => simp [lineOf]
  | cons c pre ih =>
    rw [List.cons_append, lineOf, List.takeWhile_cons]
    split
    · exact Nat.succ_le_succ ih
    · exact Nat.zero_le _

theorem findallFrom_newline (e : Expression) (post : PyText) :
    e.findallFrom 0 (newline :: post) = e.findallFrom 0 post := by
  rw [Expression.findallFrom]
  cases hmatch : e.matchAt (newline :: post) with
  | none => rfl
  | some data =>
    have hline := length_lineOf_le [] post
    obtain ⟨hdata, hwithin⟩ := matchAt_within hmatch
    rw [List.nil_append, List.length_nil] at hline
    omega

/-- What follows a newline is searched as a text of its own. -/
theorem findallFrom_lines (e : Expression) : ∀ (pre post : PyText) (skip : ℕ),
    skip ≤ pre.length → ∃ found,
      e.findallFrom skip (pre ++ newline :: post) = found ++ e.findallFrom 0 post
  | [], post, skip, hskip => by
    obtain rfl : skip = 0 := Nat.le_zero.mp hskip
    exact ⟨[], findallFrom_newline e post⟩
  | c :: pre, post, skip + 1, hskip => by
    rw [List.cons_append, Expression.findallFrom]
    exact findallFrom_lines e pre post skip (Nat.le_of_succ_le_succ hskip)
  | c :: pre, post, 0, _ => by
    rw [List.cons_append, Expression.findallFrom]
    cases hmatch : e.matchAt (c :: (pre ++ newline :: post)) with
    | none => exact findallFrom_lines e pre post 0 (Nat.zero_le _)
    | some data =>
      have hline := length_lineOf_le (c :: pre) post
      obtain ⟨-, hwithin⟩ := matchAt_within hmatch
      rw [List.cons_append, List.length_cons] at hline
      obtain ⟨found, hfound⟩ := findallFrom_lines e pre post
        (e.opening.length + data.length + e.closing.length - 1) (by omega)
      exact ⟨data :: found, by rw [List.cons_append, ← hfound]⟩

theorem findallFrom_skip (e : Expression) (text post : PyText) :
    e.findallFrom text.length (text ++ post) = e.findallFrom 0 post := by
  induction text with
  | nil => rfl
  | cons c text ih => rw [List.length_cons, List.cons_append, Expression.findallFrom, ih]

/-- Where a line encloses data to its end, all of it is the longest. -/
theorem longest_append (hdata : inBraces data = true) (hclosing : closing ≠ []) (k : ℕ) :
    longest closing (data ++ closing) (data.length + k) = some data := by
  have htwo := two_le_of_inBraces hdata
  induction k with
  | zero =>
    obtain ⟨n, hn⟩ : ∃ n, data.length = n + 1 := ⟨data.length - 1, by omega⟩
    have htake : (data ++ closing).take (n + 1) = data := by rw [← hn, List.take_left]
    have hdrop : (data ++ closing).drop (n + 1) = closing := by rw [← hn, List.drop_left]
    rw [Nat.add_zero, hn, longest, htake, hdrop, hdata,
      List.isPrefixOf_iff_prefix.mpr List.prefix_rfl]
    rfl
  | succ k ih =>
    have hshort : closing.isPrefixOf ((data ++ closing).drop (data.length + k + 1)) = false := by
      rw [Bool.eq_false_iff]
      intro hprefix
      have hlength := (List.isPrefixOf_iff_prefix.mp hprefix).length_le
      have hpos := List.length_pos_iff.mpr hclosing
      rw [List.length_drop, List.length_append] at hlength
      omega
    rw [← Nat.add_assoc, longest, hshort, Bool.and_false, if_neg Bool.false_ne_true, ih]

theorem lineOf_append (htext : newline ∉ text) (post : PyText) :
    lineOf (text ++ newline :: post) = text := by
  have hall : ∀ c ∈ text, decide (c ≠ newline) = true := by
    intro c hc
    refine decide_eq_true ?_
    rintro rfl
    exact htext hc
  rw [lineOf, List.takeWhile_append_of_pos hall, List.takeWhile_cons, if_neg (by decide),
    List.append_nil]

/-- **What a last line encloses is the last match**, whatever the lines before it hold. -/
theorem findall_last_line (hdata : inBraces data = true) (hclosing : e.closing ≠ [])
    (hline : newline ∉ e.opening ++ (data ++ e.closing)) (pre : PyText) : ∃ found,
      e.findall (pre ++ newline :: (e.opening ++ (data ++ e.closing) ++ [newline])) =
        found ++ [data] := by
  obtain ⟨found, hfound⟩ := findallFrom_lines e pre
    (e.opening ++ (data ++ e.closing) ++ [newline]) 0 (Nat.zero_le _)
  refine ⟨found, ?_⟩
  rw [Expression.findall, hfound]
  congr 1
  have hmatch : e.matchAt (e.opening ++ (data ++ e.closing) ++ [newline]) = some data := by
    have hprefix : e.opening.isPrefixOf (e.opening ++ (data ++ e.closing)) = true :=
      List.isPrefixOf_iff_prefix.mpr (List.prefix_append _ _)
    rw [Expression.matchAt, lineOf_append hline, if_pos hprefix, List.drop_left]
    dsimp only
    rw [List.length_append]
    exact longest_append hdata hclosing _
  have hnext : ∀ {c : CodePoint} {cs : PyText},
      e.opening ++ (data ++ e.closing) = c :: cs →
        e.findallFrom (e.opening.length + data.length + e.closing.length - 1) (cs ++ [newline]) =
          [] := by
    intro c cs hcs
    have hlength : e.opening.length + data.length + e.closing.length - 1 = cs.length := by
      have := congrArg List.length hcs
      simp only [List.length_append, List.length_cons] at this
      omega
    rw [hlength, findallFrom_skip, findallFrom_newline, Expression.findallFrom]
  cases htext : e.opening ++ (data ++ e.closing) with
  | nil =>
    have htwo := two_le_of_inBraces hdata
    have hlength := congrArg List.length htext
    simp only [List.length_append, List.length_nil] at hlength
    omega
  | cons c cs =>
    rw [htext, List.cons_append] at hmatch
    rw [List.cons_append, Expression.findallFrom, hmatch]
    dsimp only
    rw [hnext htext]

end BasecradleRouter.Lib.Enclosed
