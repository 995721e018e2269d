/-
# Words outside quotes

A line with quoted stretches is read without unescaping: a word stands outside them exactly if an
even number of double quotes comes before it.  `outsideQuotes` keeps those words, words being the
runs of characters that are no white space.

Two kinds of text keep the parity for whatever follows: a bare word, which holds no quote
(`scan_bare`), and a word that opens a quote which closes right before the next space
(`scan_quoted`); each stands for one word outside, and the second begins with what comes before
its quote.
-/
import BasecradleRouter.Lib.PyStr
import Mathlib.Algebra.Group.Nat.Even

namespace BasecradleRouter.Lib.QuoteParity

open BasecradleRouter.Lib.PyStr

/-- A word being read: how many quotes came before it, and its characters so far, in reverse. -/
abbrev Word := Option (ℕ × List Char)

/-- What a word that ends here comes to. -/
def flush : Word → List (List Char)
  | none => []
  | some (before, word) => if Even before then [word.reverse] else []

/-- A word with one character more, after `quotes` quotes. -/
def grow (quotes : ℕ) (c : Char) : Word → Word
  | none => some (quotes, [c])
  | some (before, word) => some (before, c :: word)

/-- The words outside quotes of a line, after `quotes` quotes and within `word`. -/
def scan (quotes : ℕ) (word : Word) : List Char → List (List Char)
  | [] => flush word
  | c :: cs =>
    if isSpace c then flush word ++ scan quotes none cs
    else scan (if c = '"' then quotes + 1 else quotes) (grow quotes c word) cs

/-- The words of a line that an even number of double quotes comes before. -/
def outsideQuotes (line : List Char) : List (List Char) := scan 0 none line

/-- A character of a bare word. -/
def Bare (c : Char) : Prop := isSpace c = false ∧ c ≠ '"'

/-- What a word may be followed by. -/
def Closed (rest : List Char) : Prop := rest = [] ∨ ∃ more, rest = ' ' :: more

theorem scan_closed {rest : List Char} (h : Closed rest) (quotes : ℕ) (word : Word) :
    scan quotes word rest = flush word ++ scan quotes none rest := by
  rcases h with rfl | ⟨more, rfl⟩
  · simp [scan, flush]
  · have hspace : isSpace ' ' = true := by decide
    simp [scan, hspace, flush]

/-- A character that is no space goes to the word. -/
theorem scan_cons {c : Char} (h : isSpace c = false) (quotes : ℕ) (word : Word)
    (cs : List Char) : scan quotes word (c :: cs) =
      scan (if c = '"' then quotes + 1 else quotes) (grow quotes c word) cs := by
  rw [scan, if_neg (by simp [h])]

/-- Within a word bare characters go to the word. -/
theorem scan_append {bare : List Char} (h : ∀ c ∈ bare, Bare c) (quotes before : ℕ)
    (word rest : List Char) : scan quotes (some (before, word)) (bare ++ rest) =
      scan quotes (some (before, bare.reverse ++ word)) rest := by
  induction bare generalizing word with
  | nil => rfl
  | cons c bare ih =>
    obtain ⟨hc, hrest⟩ := List.forall_mem_cons.mp h
    rw [List.cons_append, scan_cons hc.1, if_neg hc.2, grow, ih hrest]
    simp

/-- A bare word read up to what it is followed by. -/
theorem scan_word {bare : List Char} (hne : bare ≠ []) (h : ∀ c ∈ bare, Bare c) (quotes : ℕ)
    (rest : List Char) : scan quotes none (bare ++ rest) =
      scan quotes (some (quotes, bare.reverse)) rest := by
  cases bare with
  | nil => exact absurd rfl hne
  | cons c bare =>
    obtain ⟨hc, hrest⟩ := List.forall_mem_cons.mp h
    rw [List.cons_append, scan_cons hc.1, if_neg hc.2, grow, scan_append hrest]
    simp

/-- **A bare word stands for itself.** -/
theorem scan_bare {bare rest : List Char} {quotes : ℕ} (hne : bare ≠ []) (h : ∀ c ∈ bare, Bare c)
    (hrest : Closed rest) (heven : Even quotes) :
    scan quotes none (bare ++ rest) = bare :: scan quotes none rest := by
  rw [scan_word hne h, scan_closed hrest, flush, if_pos heven]
  simp

/-- Inside a quote no word begins that stands outside. -/
theorem scan_inside {body rest : List Char} {quotes : ℕ} {word : Word} (h : ∀ c ∈ body, c ≠ '"')
    (hrest : Closed rest) (hodd : ¬ Even quotes)
    (hword : ∀ before read, word = some (before, read) → ¬ Even before) :
    scan quotes word (body ++ '"' :: rest) = scan (quotes + 1) none rest := by
  have hnone : ∀ {word : Word}, (∀ before read, word = some (before, read) → ¬ Even before) →
      flush word = [] := by
    intro word hword
    rcases word with _ | ⟨before, read⟩
    · rfl
    · exact if_neg (hword before read rfl)
  have hgrow : ∀ (c : Char) {word : Word},
      (∀ before read, word = some (before, read) → ¬ Even before) →
        ∀ before read, grow quotes c word = some (before, read) → ¬ Even before := by
    intro c word hword before read hgrown
    rcases word with _ | ⟨before', read'⟩
    · cases hgrown
      exact hodd
    · cases hgrown
      exact hword before read' rfl
  induction body generalizing word with
  | nil =>
    have hquote : isSpace '"' = false := by decide
    rw [List.nil_append, scan_cons hquote, if_pos rfl, scan_closed hrest, hnone (hgrow '"' hword),
      List.nil_append]
  | cons c body ih =>
    obtain ⟨hc, hbody⟩ := List.forall_mem_cons.mp h
    cases hspace : isSpace c with
    | true =>
      rw [List.cons_append, scan, if_pos hspace, hnone hword, List.nil_append]
      exact ih hbody fun _ _ h => by cases h
    | false =>
      rw [List.cons_append, scan_cons hspace, if_neg hc]
      exact ih hbody (hgrow c hword)

/-- From within a word that began outside, a quote read to its end leaves that word alone. -/
theorem scan_opened {body rest : List Char} {quotes before : ℕ} {word : List Char}
    (h : ∀ c ∈ body, c ≠ '"') (hrest : Closed rest) (hodd : ¬ Even quotes) (heven : Even before) :
    ∃ suffix, scan quotes (some (before, word)) (body ++ '"' :: rest) =
      (word.reverse ++ suffix) :: scan (quotes + 1) none rest := by
  induction body generalizing word with
  | nil =>
    have hquote : isSpace '"' = false := by decide
    refine ⟨['"'], ?_⟩
    rw [List.nil_append, scan_cons hquote, if_pos rfl, scan_closed hrest, grow, flush,
      if_pos heven]
    simp
  | cons c body ih =>
    obtain ⟨hc, hbody⟩ := List.forall_mem_cons.mp h
    cases hspace : isSpace c with
    | true =>
      refine ⟨[], ?_⟩
      rw [List.cons_append, scan, if_pos hspace, flush, if_pos heven,
        scan_inside hbody hrest hodd (fun _ _ h => by cases h)]
      simp
    | false =>
      obtain ⟨suffix, hsuffix⟩ : ∃ suffix, scan quotes (some (before, c :: word))
          (body ++ '"' :: rest) =
            ((c :: word).reverse ++ suffix) :: scan (quotes + 1) none rest := ih hbody
      refine ⟨c :: suffix, ?_⟩
      rw [List.cons_append, scan_cons hspace, if_neg hc, grow, hsuffix]
      simp

/-- **A word that opens a quote stands for one word outside**, which begins with what comes before
the quote. -/
theorem scan_quoted {bare body rest : List Char} {quotes : ℕ} (hne : bare ≠ [])
    (hbare : ∀ c ∈ bare, Bare c) (hbody : ∀ c ∈ body, c ≠ '"') (hrest : Closed rest)
    (heven : Even quotes) :
    ∃ suffix, scan quotes none (bare ++ '"' :: (body ++ '"' :: rest)) =
      (bare ++ suffix) :: scan (quotes + 2) none rest := by
  have hquote : isSpace '"' = false := by decide
  have hodd : ¬ Even (quotes + 1) := by
    rw [Nat.even_add_one, not_not]
    exact heven
  obtain ⟨suffix, hsuffix⟩ : ∃ suffix, scan (quotes + 1) (some (quotes, '"' :: bare.reverse))
      (body ++ '"' :: rest) =
        (('"' :: bare.reverse).reverse ++ suffix) :: scan (quotes + 2) none rest :=
    scan_opened hbody hrest hodd heven
  refine ⟨'"' :: suffix, ?_⟩
  rw [scan_word hne hbare, scan_cons hquote, if_pos rfl, grow, hsuffix]
  simp

end BasecradleRouter.Lib.QuoteParity
