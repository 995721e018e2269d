/-
# A string as JSON text

`json.dumps` of a string, with the defaults Python gives it: what is not printable ASCII is escaped,
outside the Basic Multilingual Plane as a surrogate pair, and so are the double quote and the
backslash.  So the text holds printable ASCII only (`printable_of_mem_escape`), its spaces are the
string's own (`escapeAll_split`), and so are its inner double quotes (`count_escapeAll`), each
behind a backslash.
-/
import Mathlib.Data.List.Basic
import Mathlib.Data.Nat.Notation

namespace BasecradleRouter.Lib.JsonString

/-- `\uXXXX` -/
def unicode (n : ℕ) : List Char :=
  ['\\', 'u', Nat.digitChar (n / 0x1000 % 16), Nat.digitChar (n / 0x100 % 16),
    Nat.digitChar (n / 0x10 % 16), Nat.digitChar (n % 16)]

/-- Space to tilde. -/
def printable (c : Char) : Bool := 0x20 ≤ c.toNat && c.toNat ≤ 0x7e

/-- `ESCAPE_DCT`: what stands behind the backslash. -/
def shortEscapes : List (Char × Char) :=
  [('\\', '\\'), ('"', '"'), ('\x08', 'b'), ('\x0c', 'f'), ('\n', 'n'), ('\r', 'r'), ('\t', 't')]

/-- One character of a string. -/
def escape (c : Char) : List Char :=
  match shortEscapes.lookup c with
  | some letter => ['\\', letter]
  | none =>
    if printable c then [c]
    else if c.toNat < 0x10000 then unicode c.toNat
    else unicode (0xd800 + (c.toNat - 0x10000) / 0x400) ++
      unicode (0xdc00 + (c.toNat - 0x10000) % 0x400)

def escapeAll (s : List Char) : List Char := s.flatMap escape

/-- `json.dumps(s)` -/
def dumps (s : List Char) : List Char := '"' :: (escapeAll s ++ ['"'])

theorem mem_shortEscapes {c letter : Char} (h : shortEscapes.lookup c = some letter) :
    (c, letter) ∈ shortEscapes := by
  obtain ⟨before, after, hsplit, -⟩ := List.lookup_eq_some_iff.mp h
  rw [hsplit]
  simp

/-- Each letter is printable and no space, and is a quote behind a quote's backslash only. -/
theorem shortEscapes_plain : ∀ p ∈ shortEscapes, printable p.2 = true ∧ p.2 ≠ ' ' ∧
    ['\\', p.2].count '"' = if p.1 = '"' then 1 else 0 := by decide

theorem digitChar_plain : ∀ n < 16, printable (Nat.digitChar n) = true ∧ Nat.digitChar n ≠ ' ' ∧
    Nat.digitChar n ≠ '"' := by decide

/-- An escaped code point is made of digits, and holds neither a space nor a quote. -/
theorem plain_of_mem_unicode {n : ℕ} {x : Char} (h : x ∈ unicode n) :
    printable x = true ∧ x ≠ ' ' ∧ x ≠ '"' := by
  simp only [unicode, List.mem_cons, List.not_mem_nil, or_false] at h
  rcases h with rfl | rfl | rfl | rfl | rfl | rfl
  · decide
  · decide
  · exact digitChar_plain _ (Nat.mod_lt _ (by decide))
  · exact digitChar_plain _ (Nat.mod_lt _ (by decide))
  · exact digitChar_plain _ (Nat.mod_lt _ (by decide))
  · exact digitChar_plain _ (Nat.mod_lt _ (by decide))

/-- A character stands for itself, has a short escape, or is escaped by its code point. -/
theorem escape_cases (c : Char) :
    (escape c = [c] ∧ printable c = true ∧ c ≠ '"' ∧ c ≠ '\\') ∨
    (∃ letter, shortEscapes.lookup c = some letter ∧ escape c = ['\\', letter]) ∨
    (shortEscapes.lookup c = none ∧ printable c = false ∧
      ∀ x ∈ escape c, printable x = true ∧ x ≠ ' ' ∧ x ≠ '"') := by
  unfold escape
  cases hshort : shortEscapes.lookup c with
  | some letter => exact Or.inr (Or.inl ⟨letter, rfl, rfl⟩)
  | none =>
    dsimp only
    split
    · next hprintable =>
      refine Or.inl ⟨rfl, hprintable, ?_, ?_⟩
      · rintro rfl
        exact absurd hshort (by decide)
      · rintro rfl
        exact absurd hshort (by decide)
    · next hprintable =>
      refine Or.inr (Or.inr ⟨rfl, by simpa using hprintable, ?_⟩)
      split
      · exact fun x hx => plain_of_mem_unicode hx
      · intro x hx
        rcases List.mem_append.mp hx with hx | hx
        · exact plain_of_mem_unicode hx
        · exact plain_of_mem_unicode hx

/-- What an escape is written with. -/
def escapeLetters : List Char := "\\\"ubfnrt0123456789abcdef".toList

theorem mem_escapeLetters_of_mem_unicode {n : ℕ} {x : Char} (h : x ∈ unicode n) :
    x ∈ escapeLetters := by
  have hdigit : ∀ n < 16, Nat.digitChar n ∈ escapeLetters := by decide
  simp only [unicode, List.mem_cons, List.not_mem_nil, or_false] at h
  rcases h with rfl | rfl | rfl | rfl | rfl | rfl
  · decide
  · decide
  · exact hdigit _ (Nat.mod_lt _ (by decide))
  · exact hdigit _ (Nat.mod_lt _ (by decide))
  · exact hdigit _ (Nat.mod_lt _ (by decide))
  · exact hdigit _ (Nat.mod_lt _ (by decide))

/-- Of other characters, only a string's own stand in its text. -/
theorem mem_escape {c x : Char} (h : x ∈ escape c) : x = c ∨ x ∈ escapeLetters := by
  have hshort : ∀ p ∈ shortEscapes, p.2 ∈ escapeLetters := by decide
  unfold escape at h
  cases hlookup : shortEscapes.lookup c with
  | some letter =>
    rw [hlookup] at h
    dsimp only at h
    rw [List.mem_cons, List.mem_singleton] at h
    rcases h with rfl | rfl
    · exact Or.inr (by decide)
    · exact Or.inr (hshort _ (mem_shortEscapes hlookup))
  | none =>
    rw [hlookup] at h
    dsimp only at h
    split at h
    · exact Or.inl (List.mem_singleton.mp h)
    · refine Or.inr ?_
      split at h
      · exact mem_escapeLetters_of_mem_unicode h
      · rcases List.mem_append.mp h with h | h
        · exact mem_escapeLetters_of_mem_unicode h
        · exact mem_escapeLetters_of_mem_unicode h

theorem printable_of_mem_escape {c x : Char} (h : x ∈ escape c) : printable x = true := by
  rcases escape_cases c with ⟨hself, hc, -⟩ | ⟨letter, hshort, hescape⟩ | ⟨-, -, hcode⟩
  · rw [hself, List.mem_singleton] at h
    rw [h]
    exact hc
  · rw [hescape, List.mem_cons, List.mem_singleton] at h
    rcases h with rfl | rfl
    · decide
    · exact (shortEscapes_plain _ (mem_shortEscapes hshort)).1
  · exact (hcode x h).1

theorem printable_of_mem_escapeAll {s : List Char} {x : Char} (h : x ∈ escapeAll s) :
    printable x = true := by
  obtain ⟨c, -, hx⟩ := List.mem_flatMap.mp h
  exact printable_of_mem_escape hx

/-- A quote is escaped into one quote, and no other character into any. -/
theorem count_escape (c : Char) : (escape c).count '"' = if c = '"' then 1 else 0 := by
  rcases escape_cases c with ⟨hself, -, hquote, -⟩ | ⟨letter, hshort, hescape⟩ | ⟨hnone, -, hcode⟩
  · rw [hself, if_neg hquote, List.count_singleton, if_neg (by simp [hquote])]
  · rw [hescape]
    exact (shortEscapes_plain _ (mem_shortEscapes hshort)).2.2
  · rw [if_neg (by rintro rfl; exact absurd hnone (by decide))]
    exact List.count_eq_zero.mpr fun hmem => (hcode '"' hmem).2.2 rfl

theorem count_escapeAll (s : List Char) : (escapeAll s).count '"' = s.count '"' := by
  induction s with
  | nil => rfl
  | cons c s ih =>
    have hcons : escapeAll (c :: s) = escape c ++ escapeAll s := rfl
    rw [hcons, List.count_append, count_escape, ih, List.count_cons, Nat.add_comm]
    simp

/-- A space is escaped into itself, and no other character into one. -/
theorem space_mem_escape {c : Char} (h : ' ' ∈ escape c) : c = ' ' := by
  rcases escape_cases c with ⟨hself, -⟩ | ⟨letter, hshort, hescape⟩ | ⟨-, -, hcode⟩
  · rw [hself, List.mem_singleton] at h
    exact h.symm
  · rw [hescape, List.mem_cons, List.mem_singleton] at h
    rcases h with h | h
    · exact absurd h (by decide)
    · exact absurd h.symm (shortEscapes_plain _ (mem_shortEscapes hshort)).2.1
  · exact absurd rfl (hcode ' ' h).2.1

theorem escape_space : escape ' ' = [' '] := by decide

/-- The spaces of the text are the string's own. -/
theorem escapeAll_split {s before after : List Char} (h : escapeAll s = before ++ ' ' :: after) :
    ∃ pre post, s = pre ++ ' ' :: post ∧ before = escapeAll pre ∧ after = escapeAll post := by
  induction s generalizing before with
  | nil =>
    have := congrArg List.length h
    simp [escapeAll] at this
  | cons c s ih =>
    have hcons : escapeAll (c :: s) = escape c ++ escapeAll s := rfl
    rw [hcons] at h
    rcases List.append_eq_append_iff.mp h with ⟨mid, hbefore, hrest⟩ | ⟨mid, hc, hrest⟩
    · obtain ⟨pre, post, hs, hmid, hafter⟩ := ih hrest
      exact ⟨c :: pre, post, by rw [hs]; rfl, by rw [hbefore, hmid]; rfl, hafter⟩
    · cases mid with
      | nil =>
        have hspace : escapeAll s = [] ++ ' ' :: after := hrest.symm
        obtain ⟨pre, post, hs, hmid, hafter⟩ := ih hspace
        refine ⟨c :: pre, post, by rw [hs]; rfl, ?_, hafter⟩
        rw [List.append_nil] at hc
        have hcons' : escapeAll (c :: pre) = escape c ++ escapeAll pre := rfl
        rw [hcons', ← hmid, hc, List.append_nil]
      | cons x mid =>
        cases hrest
        -- the space is one of `c`'s own characters, so `c` is the space
        have hspace : c = ' ' := space_mem_escape (by rw [hc]; simp)
        subst hspace
        rw [escape_space] at hc
        have hnil : before = [] ∧ mid = [] := by
          cases before with
          | nil => simpa using hc.symm
          | cons y before => simp at hc
        exact ⟨[], s, rfl, hnil.1, by rw [hnil.2]; rfl⟩

end BasecradleRouter.Lib.JsonString
