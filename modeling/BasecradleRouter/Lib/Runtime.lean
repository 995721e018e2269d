/-
# What the interpreter brings

Some of what a Python program computes rests on tables of the interpreter that change with its
version: Unicode's cases and character classes, the date formats `fromisoformat` reads, how `repr`
escapes, what `json.loads` refuses.  `Runtime` holds these as they are asked for, with the two laws
of `str.lower` that every version keeps:

* an ASCII text is lowered letter by letter;
* a text whose lower case is ASCII is ASCII itself, the Kelvin sign apart, which lowers to `k`.

`ignoreCase` is how `re.IGNORECASE` compares a character with a lower-case ASCII pattern character:
`i`, `s` and `k` each have a match outside ASCII.  A text with the lower case of an ASCII text has
its letters (`sameLetters_of_lower_eq`), and so matches whatever that text matches
(`ignoreCase_of_sameLetter`).
-/
import BasecradleRouter.Lib.Datetime
import BasecradleRouter.Lib.Json

namespace BasecradleRouter.Lib

/-- What `datetime.fromisoformat` returns; a naive time by the instant it is in UTC. -/
inductive Timestamp
  | naive (wall : Utc)
  | aware (d : Datetime)

/-- What `json.loads` raises: a `JSONDecodeError` with its message, or anything else (bytes that
do not decode, nesting too deep, an integer too long) with its name. -/
inductive LoadsError
  | decode (message : String)
  | other (name : String)
  deriving DecidableEq, Repr

/-- An ASCII character. -/
def asciiChar (c : Char) : Bool := c.toNat < 128

/-- `s.isascii()` -/
def isAscii (s : String) : Bool := s.toList.all asciiChar

/-- `U+212A`, which lowers to `k`. -/
def kelvin : Char := Char.ofNat 0x212A

/-- `d` is `c` in lower case, for the characters whose lower case is ASCII. -/
def LowersTo (c d : Char) : Prop :=
  (asciiChar c = true ∧ d = c.toLower) ∨ (c = kelvin ∧ d = 'k')

/-- The interpreter, as far as the router leans on it. -/
structure Runtime where
  /-- `s.lower()` -/
  lower : String → String
  /-- `\w` -/
  isWord : Char → Bool
  /-- `\d`, and the digit's value -/
  digit : Char → Option ℕ
  /-- `repr(s)` -/
  repr : String → String
  /-- `datetime.fromisoformat(s)`, `none` where it raises `ValueError` -/
  fromisoformat : String → Option Timestamp
  /-- `json.loads(body)` -/
  loads : List UInt8 → Except LoadsError Json
  lower_of_ascii : ∀ s, isAscii s = true → (lower s).toList = s.toList.map Char.toLower
  lower_ascii : ∀ s, isAscii (lower s) = true → List.Forall₂ LowersTo s.toList (lower s).toList

/-! ## Letters -/

/-- What holds of the first 128 code points holds of every ASCII character. -/
theorem ascii_forall {P : Char → Prop} (h : ∀ n < 128, P (Char.ofNat n)) {c : Char}
    (hc : asciiChar c = true) : P c := by
  have hP : P (Char.ofNat c.toNat) := h c.toNat (by simpa [asciiChar] using hc)
  rwa [Char.ofNat_toNat] at hP

/-- Only `A` to `Z` are lowered by `Char.toLower`. -/
theorem toLower_of_not_ascii {c : Char} (hc : asciiChar c = false) : c.toLower = c := by
  unfold Char.toLower
  have h128 : ¬ c.val.toNat < 128 := of_decide_eq_false hc
  rw [dif_neg]
  rintro ⟨-, hZ⟩
  have hle : c.val.toNat ≤ 90 := UInt32.le_iff_toNat_le.mp hZ
  omega

theorem asciiChar_toLower (c : Char) : asciiChar c.toLower = asciiChar c := by
  cases hc : asciiChar c with
  | true => exact ascii_forall (P := fun c => asciiChar c.toLower = true) (by decide +kernel) hc
  | false => rw [toLower_of_not_ascii hc, hc]

/-! ## Matching without case -/

/-- Whether the pattern character `p`, in ASCII lower case, matches `c` under
`re.IGNORECASE`. -/
def ignoreCase (p c : Char) : Bool :=
  c.toLower == p || (p == 'i' && (c.toNat == 0x130 || c.toNat == 0x131)) ||
    (p == 's' && c.toNat == 0x17F) || (p == 'k' && c == kelvin)

theorem ignoreCase_of_ascii {p c : Char} (hc : asciiChar c = true) :
    ignoreCase p c = true ↔ c.toLower = p := by
  have hnat : c.toNat < 128 := by simpa [asciiChar] using hc
  have hk : c ≠ kelvin := by
    rintro rfl
    exact absurd hc (by decide)
  simp only [ignoreCase, Bool.or_eq_true, Bool.and_eq_true, beq_iff_eq]
  constructor
  · rintro (((h | ⟨-, h⟩) | ⟨-, h⟩) | ⟨-, h⟩)
    · exact h
    · omega
    · omega
    · exact absurd h hk
  · exact fun h => Or.inl (Or.inl (Or.inl h))

/-- `d` is ASCII, and `c` has its lower case. -/
def SameLetter (c d : Char) : Prop := asciiChar d = true ∧ LowersTo c d.toLower

/-- A pattern character that matches an ASCII character matches all of its lower case. -/
theorem ignoreCase_of_sameLetter {p c d : Char} (h : SameLetter c d)
    (hp : ignoreCase p d = true) : ignoreCase p c = true := by
  have hpd : d.toLower = p := (ignoreCase_of_ascii h.1).mp hp
  rcases h.2 with ⟨hc, hcd⟩ | ⟨rfl, hk⟩
  · exact (ignoreCase_of_ascii hc).mpr (by rw [← hcd, hpd])
  · rw [← hpd, hk]
    decide

theorem sameLetters : ∀ {cs ds : List Char}, ds.all asciiChar = true →
    List.Forall₂ LowersTo cs (ds.map Char.toLower) → List.Forall₂ SameLetter cs ds
  | [], [], _, _ => List.Forall₂.nil
  | c :: cs, d :: ds, hds, h => by
    rw [List.map_cons, List.forall₂_cons] at h
    rw [List.all_cons, Bool.and_eq_true] at hds
    exact List.Forall₂.cons ⟨hds.1, h.1⟩ (sameLetters hds.2 h.2)

/-- A text with the lower case of an ASCII text has its letters. -/
theorem Runtime.sameLetters_of_lower_eq (py : Runtime) {s t : String} (ht : isAscii t = true)
    (h : py.lower s = py.lower t) : List.Forall₂ SameLetter s.toList t.toList := by
  have hlower : (py.lower s).toList = t.toList.map Char.toLower := by
    rw [h, py.lower_of_ascii t ht]
  have hascii : isAscii (py.lower s) = true := by
    unfold isAscii
    rw [hlower, List.all_map]
    simpa [isAscii, asciiChar_toLower] using ht
  have hforall := py.lower_ascii s hascii
  rw [hlower] at hforall
  exact sameLetters ht hforall

/-! ## The ASCII interpreter -/

theorem isAscii_ofList {cs : List Char} : isAscii (String.ofList cs) = cs.all asciiChar := by
  simp [isAscii]

theorem forall₂_lowersTo {cs : List Char} (h : (cs.map Char.toLower).all asciiChar = true) :
    List.Forall₂ LowersTo cs (cs.map Char.toLower) := by
  induction cs with
  | nil => exact List.Forall₂.nil
  | cons c cs ih =>
    simp only [List.map_cons, List.all_cons, Bool.and_eq_true] at h
    have hc : asciiChar c = true := by rw [← asciiChar_toLower]; exact h.1
    exact List.Forall₂.cons (Or.inl ⟨hc, rfl⟩) (ih h.2)

/-- An interpreter that is right about ASCII, and reads the bodies and times it is given. -/
def Runtime.ascii (loads : List UInt8 → Except LoadsError Json)
    (fromisoformat : String → Option Timestamp) : Runtime where
  lower s := String.ofList (s.toList.map Char.toLower)
  isWord c := c.isAlphanum || c == '_'
  digit c := if c.isDigit then some (c.toNat - '0'.toNat) else none
  repr s := "'" ++ s ++ "'"
  fromisoformat := fromisoformat
  loads := loads
  lower_of_ascii s _ := String.toList_ofList
  lower_ascii s h := by
    rw [isAscii_ofList] at h
    rw [String.toList_ofList]
    exact forall₂_lowersTo h

end BasecradleRouter.Lib
