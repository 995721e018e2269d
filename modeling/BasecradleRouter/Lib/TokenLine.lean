/-
# Lines of tokens

A line joins tokens by single spaces.  A reader that counts double quotes takes a word for a token
if an even number of them comes before it; `starts` is where such words begin, and `offsets` is
where the line's own tokens do.

`starts_join_iff`: the two are the same, and the line's quotes pair off, exactly if each token's
quotes pair off and every space in it stands behind an odd number of them (`Held`).  A token that
breaks this either lets a word of its own out or swallows the next token.
-/
import BasecradleRouter.Lib.QuoteParity

namespace BasecradleRouter.Lib.QuoteParity

open BasecradleRouter.Lib.PyStr

/-- Where a word begins that stands outside quotes, in a text at `pos` and after `quotes` quotes;
`inWord` if the text goes on with a word. -/
def startsFrom (pos quotes : ℕ) (inWord : Bool) : List Char → List ℕ
  | [] => []
  | c :: cs =>
    if isSpace c then startsFrom (pos + 1) quotes false cs
    else (if inWord = false ∧ Even quotes then [pos] else []) ++
      startsFrom (pos + 1) (if c = '"' then quotes + 1 else quotes) true cs

/-- Where the words outside quotes begin. -/
def starts (line : List Char) : List ℕ := startsFrom 0 0 false line

/-- Where the tokens of a line from `pos` on begin. -/
def offsets (pos : ℕ) : List (List Char) → List ℕ
  | [] => []
  | token :: tokens => pos :: offsets (pos + token.length + 1) tokens

/-- The word at a position. -/
def wordAt (line : List Char) (pos : ℕ) : List Char := (line.drop pos).takeWhile (!isSpace ·)

/-- Every space of a token stands behind an odd number of its quotes. -/
def Held (token : List Char) : Prop :=
  ∀ before after, token = before ++ ' ' :: after → ¬ Even (before.count '"')

/-- A token that neither begins nor ends with white space, and holds none but the space. -/
structure Trimmed (token : List Char) : Prop where
  first : ∃ c cs, token = c :: cs ∧ isSpace c = false
  last : ∃ cs c, token = cs ++ [c] ∧ isSpace c = false
  spaces : ∀ c ∈ token, isSpace c = true → c = ' '

theorem isSpace_space : isSpace ' ' = true := by decide

/-- The quotes before a text's end, counted from its first character on. -/
theorem quotes_cons (quotes : ℕ) (c : Char) (cs : List Char) :
    (if c = '"' then quotes + 1 else quotes) + cs.count '"' = quotes + (c :: cs).count '"' := by
  by_cases hc : c = '"'
  · rw [if_pos hc, hc, List.count_cons_self]
    omega
  · rw [if_neg hc, List.count_cons_of_ne hc]

theorem startsFrom_cons {c : Char} (hc : isSpace c = false) (pos quotes : ℕ) (inWord : Bool)
    (cs : List Char) : startsFrom pos quotes inWord (c :: cs) =
      (if inWord = false ∧ Even quotes then [pos] else []) ++
        startsFrom (pos + 1) (if c = '"' then quotes + 1 else quotes) true cs := by
  rw [startsFrom, if_neg (by simp [hc])]

/-! ## 1. The words at the starts -/

theorem wordAt_here (before cs : List Char) :
    wordAt (before ++ cs) before.length = cs.takeWhile (!isSpace ·) := by
  simp [wordAt]

/-- The words outside quotes are those that begin at the starts. -/
theorem scan_eq_starts (before cs : List Char) (quotes : ℕ) :
    scan quotes none cs =
        (startsFrom before.length quotes false cs).map (wordAt (before ++ cs)) ∧
      ∀ opened word, scan quotes (some (opened, word)) cs =
        (if Even opened then [word.reverse ++ cs.takeWhile (!isSpace ·)] else []) ++
          (startsFrom before.length quotes true cs).map (wordAt (before ++ cs)) := by
  induction cs generalizing before quotes with
  | nil => exact ⟨rfl, fun opened word => by simp [scan, flush, startsFrom]⟩
  | cons c cs ih =>
    have hline : before ++ c :: cs = (before ++ [c]) ++ cs := by simp
    have hlength : (before ++ [c]).length = before.length + 1 := by simp
    cases hspace : isSpace c with
    | true =>
      obtain ⟨hnone, -⟩ := ih (before ++ [c]) quotes
      rw [hlength, ← hline] at hnone
      refine ⟨?_, fun opened word => ?_⟩
      · rw [scan, if_pos hspace, startsFrom, if_pos hspace, ← hnone]
        rfl
      · rw [scan, if_pos hspace, startsFrom, if_pos hspace, hnone]
        simp [flush, hspace]
    | false =>
      obtain ⟨-, hsome⟩ := ih (before ++ [c]) (if c = '"' then quotes + 1 else quotes)
      rw [hlength, ← hline] at hsome
      refine ⟨?_, fun opened word => ?_⟩
      · rw [scan_cons hspace, grow, hsome, startsFrom_cons hspace]
        have hword : wordAt (before ++ c :: cs) before.length = c :: cs.takeWhile (!isSpace ·) := by
          rw [wordAt_here, List.takeWhile_cons_of_pos (by simp [hspace])]
        rw [List.map_append]
        refine congrArg (· ++ _) ?_
        by_cases heven : Even quotes
        · simp [heven, hword]
        · simp [heven]
      · rw [scan_cons hspace, grow, hsome, startsFrom_cons hspace,
          List.takeWhile_cons_of_pos (by simp [hspace])]
        simp

theorem outsideQuotes_eq_starts (line : List Char) :
    outsideQuotes line = (starts line).map (wordAt line) := (scan_eq_starts [] line 0).1

/-! ## 2. One token -/

theorem startsFrom_space (pos quotes : ℕ) (inWord : Bool) (token rest : List Char) :
    startsFrom pos quotes inWord (token ++ ' ' :: rest) =
      startsFrom pos quotes inWord token ++
        startsFrom (pos + token.length + 1) (quotes + token.count '"') false rest := by
  induction token generalizing pos quotes inWord with
  | nil => simp [startsFrom, isSpace_space]
  | cons c token ih =>
    have hpos : pos + 1 + token.length + 1 = pos + (c :: token).length + 1 := by
      simp only [List.length_cons]
      omega
    have hquotes := quotes_cons quotes c token
    cases hspace : isSpace c with
    | true =>
      have hne : c ≠ '"' := by
        rintro rfl
        exact absurd hspace (by decide)
      rw [if_neg hne] at hquotes
      rw [List.cons_append, startsFrom, if_pos hspace, startsFrom, if_pos hspace, ih, hpos, hquotes]
    | false =>
      rw [List.cons_append, startsFrom_cons hspace, startsFrom_cons hspace, ih, hpos, hquotes,
        List.append_assoc]

theorem le_of_mem_startsFrom {pos quotes : ℕ} {inWord : Bool} {cs : List Char} {i : ℕ}
    (h : i ∈ startsFrom pos quotes inWord cs) : pos ≤ i ∧ i < pos + cs.length := by
  induction cs generalizing pos quotes inWord with
  | nil => cases h
  | cons c cs ih =>
    have hlater : ∀ {quotes : ℕ} {inWord : Bool}, i ∈ startsFrom (pos + 1) quotes inWord cs →
        pos ≤ i ∧ i < pos + (c :: cs).length := by
      intro quotes inWord h
      have hbounds := ih h
      simp only [List.length_cons]
      omega
    rw [startsFrom] at h
    split at h
    · exact hlater h
    · rcases List.mem_append.mp h with hhere | h
      · split at hhere
        · rw [List.mem_singleton.mp hhere]
          simp
        · cases hhere
      · exact hlater h

/-- A text with something in it has a word outside, where no quote is open before it. -/
theorem startsFrom_ne_nil {quotes : ℕ} (heven : Even quotes) {c : Char} {cs : List Char}
    (hmem : c ∈ cs) (hc : isSpace c = false) (pos : ℕ) : startsFrom pos quotes false cs ≠ [] := by
  induction cs generalizing pos with
  | nil => cases hmem
  | cons d cs ih =>
    rw [startsFrom]
    split
    · next hspace =>
      rcases List.mem_cons.mp hmem with rfl | hmem
      · rw [hc] at hspace
        cases hspace
      · exact ih hmem (pos + 1)
    · simp [heven]

/-- No word outside begins where every space stands behind an odd number of quotes. -/
theorem startsFrom_eq_nil {cs : List Char} {pos quotes : ℕ} {inWord : Bool}
    (hspaces : ∀ c ∈ cs, isSpace c = true → c = ' ') (hopen : inWord = true ∨ ¬ Even quotes)
    (hheld : ∀ before after, cs = before ++ ' ' :: after → ¬ Even (quotes + before.count '"')) :
    startsFrom pos quotes inWord cs = [] := by
  induction cs generalizing pos quotes inWord with
  | nil => rfl
  | cons c cs ih =>
    obtain ⟨hc, hcs⟩ := List.forall_mem_cons.mp hspaces
    rw [startsFrom]
    split
    · next hspace =>
      have hodd : ¬ Even quotes := hheld [] cs (by rw [hc hspace]; rfl)
      refine ih hcs (Or.inr hodd) fun before after h => ?_
      have h := hheld (c :: before) after (by rw [h]; rfl)
      rwa [List.count_cons_of_ne (by rw [hc hspace]; decide)] at h
    · have hclosed : ¬ (inWord = false ∧ Even quotes) := by
        rintro ⟨hfalse, heven⟩
        rcases hopen with htrue | hodd
        · rw [htrue] at hfalse
          cases hfalse
        · exact hodd heven
      rw [if_neg hclosed, List.nil_append]
      refine ih hcs (Or.inl rfl) fun before after h => ?_
      rw [quotes_cons]
      exact hheld (c :: before) after (by rw [h]; rfl)

/-- A token begins one word outside, its own. -/
theorem startsFrom_token {token : List Char} (h : Trimmed token) {quotes : ℕ} (heven : Even quotes)
    (pos : ℕ) : startsFrom pos quotes false token = [pos] ↔ Held token := by
  obtain ⟨c, cs, rfl, hc⟩ := h.first
  have hparity : ∀ before : List Char,
      Even (quotes + before.count '"') ↔ Even (before.count '"') := by
    intro before
    simp [Nat.even_add, heven]
  constructor
  · intro hone before after hsplit heven'
    rw [hsplit, startsFrom_space] at hone
    -- the space is no end of the token, and the word after it would be outside
    obtain ⟨ds, d, hlast, hd⟩ := h.last
    have hmem : d ∈ after := by
      have hafter : after ≠ [] := by
        rintro rfl
        rw [hsplit] at hlast
        have hspace := (List.append_inj' hlast rfl).2
        cases hspace
        exact absurd hd (by decide)
      obtain ⟨es, e, rfl⟩ := List.eq_nil_or_concat' after |>.resolve_left hafter
      have hsame : before ++ ' ' :: es ++ [e] = ds ++ [d] := by
        rw [← hlast, hsplit]
        simp
      cases (List.append_inj' hsame rfl).2
      simp
    have hfirst : startsFrom pos quotes false before ≠ [] := by
      cases before with
      | nil =>
        cases hsplit
        exact absurd hc (by decide)
      | cons b before =>
        cases hsplit
        exact startsFrom_ne_nil heven List.mem_cons_self hc pos
    have hsecond := startsFrom_ne_nil ((hparity before).mpr heven') hmem hd
      (pos + before.length + 1)
    have hlength := congrArg List.length hone
    rw [List.length_append, List.length_singleton] at hlength
    have := List.length_pos_iff.mpr hfirst
    have := List.length_pos_iff.mpr hsecond
    omega
  · intro hheld
    have htail : startsFrom (pos + 1) (if c = '"' then quotes + 1 else quotes) true cs = [] := by
      refine startsFrom_eq_nil (fun d hd => h.spaces d (List.mem_cons_of_mem c hd)) (Or.inl rfl) ?_
      intro before after hsplit
      rw [quotes_cons, hparity]
      exact hheld (c :: before) after (by rw [hsplit]; rfl)
    rw [startsFrom_cons hc, if_pos ⟨rfl, heven⟩, htail]
    rfl

/-- A quoted token holds its spaces exactly if an even number of its inner quotes stands before
each. -/
theorem held_quoted {head body : List Char} (hhead : ∀ c ∈ head, Bare c) :
    Held (head ++ '"' :: (body ++ ['"'])) ↔
      ∀ before after, body = before ++ ' ' :: after → Even (before.count '"') := by
  have hcount : ∀ before : List Char,
      (head ++ '"' :: before).count '"' = before.count '"' + 1 := by
    intro before
    have hnone : head.count '"' = 0 := List.count_eq_zero.mpr fun hmem => (hhead '"' hmem).2 rfl
    rw [List.count_append, hnone, List.count_cons_self, Nat.zero_add]
  constructor
  · intro hheld before after hbody
    have hodd := hheld (head ++ '"' :: before) (after ++ ['"']) (by rw [hbody]; simp)
    rwa [hcount, Nat.even_add_one, not_not] at hodd
  · intro hbody before after hsplit
    -- the space stands in the body, so that `before` ends within it
    obtain ⟨rest, rfl, hrest⟩ | ⟨rest, rfl, hrest⟩ := List.append_eq_append_iff.mp hsplit
    · cases rest with
      | nil => cases hrest
      | cons c rest =>
        obtain ⟨rfl, hbefore⟩ := List.cons.inj hrest
        rw [hcount, Nat.even_add_one, not_not]
        obtain ⟨tail, rfl, htail⟩ | ⟨tail, htail, hafter⟩ := List.append_eq_append_iff.mp hbefore
        · have hmem : ' ' ∈ ['"'] := by
            rw [htail]
            simp
          exact absurd hmem (by decide)
        · cases tail with
          | nil => cases hafter
          | cons d tail =>
            cases hafter
            exact hbody rest tail htail
    · cases rest with
      | nil => cases hrest
      | cons c rest =>
        cases hrest
        exact absurd (hhead ' ' (by simp)).1 (by decide)

/-! ## 3. A line -/

theorem join_cons_cons (token token' : List Char) (tokens : List (List Char)) :
    join [' '] (token :: token' :: tokens) = token ++ ' ' :: join [' '] (token' :: tokens) := by
  simp [join]

/-- What stands before a position and what stands from it on are told apart. -/
theorem append_eq_cons_of_lt {pos bound : ℕ} {first rest later : List ℕ} (hpos : pos < bound)
    (hfirst : ∀ i ∈ first, i < bound) (hrest : ∀ i ∈ rest, bound ≤ i)
    (hlater : ∀ i ∈ later, bound ≤ i) (h : first ++ rest = pos :: later) :
    first = [pos] ∧ rest = later := by
  have hkept : ∀ {l : List ℕ}, (∀ i ∈ l, i < bound) → l.filter (· < bound) = l := fun hl =>
    List.filter_eq_self.mpr fun i hi => decide_eq_true (hl i hi)
  have hgone : ∀ {l : List ℕ}, (∀ i ∈ l, bound ≤ i) → l.filter (· < bound) = [] := fun hl =>
    List.filter_eq_nil_iff.mpr fun i hi => by simpa using hl i hi
  have hbelow := congrArg (List.filter (· < bound)) h
  have hhead : (pos :: later).filter (· < bound) = [pos] := by
    rw [List.filter_cons, if_pos (decide_eq_true hpos), hgone hlater]
  rw [List.filter_append, hkept hfirst, hgone hrest, List.append_nil, hhead] at hbelow
  rw [hbelow] at h
  exact ⟨hbelow, List.cons_inj_right pos |>.mp h⟩

theorem le_of_mem_offsets {pos : ℕ} {tokens : List (List Char)} {i : ℕ}
    (h : i ∈ offsets pos tokens) : pos ≤ i := by
  induction tokens generalizing pos with
  | nil => cases h
  | cons token tokens ih =>
    rcases List.mem_cons.mp h with rfl | h
    · exact Nat.le_refl _
    · have := ih h
      omega

/-- A line whose first token begins at a start has no quote open before it. -/
theorem even_of_starts {token : List Char} (h : Trimmed token) {pos quotes : ℕ}
    {rest : List Char} {later : List ℕ}
    (hstarts : startsFrom pos quotes false (token ++ rest) = pos :: later) : Even quotes := by
  obtain ⟨c, cs, rfl, hc⟩ := h.first
  by_contra hodd
  rw [List.cons_append, startsFrom_cons hc, if_neg (fun h => hodd h.2), List.nil_append] at hstarts
  have hmem : pos ∈ startsFrom (pos + 1) (if c = '"' then quotes + 1 else quotes) true
      (cs ++ rest) := by
    rw [hstarts]
    exact List.mem_cons_self
  have := le_of_mem_startsFrom hmem
  omega

theorem startsFrom_join {tokens : List (List Char)} (h : ∀ token ∈ tokens, Trimmed token)
    {quotes : ℕ} (heven : Even quotes) (pos : ℕ) :
    (startsFrom pos quotes false (join [' '] tokens) = offsets pos tokens ∧
      Even (quotes + (join [' '] tokens).count '"')) ↔
    ∀ token ∈ tokens, Held token ∧ Even (token.count '"') := by
  induction tokens generalizing pos quotes with
  | nil => simp [join, startsFrom, offsets, heven]
  | cons token tokens ih =>
    obtain ⟨htoken, htokens⟩ := List.forall_mem_cons.mp h
    have hparity : Even (quotes + token.count '"') ↔ Even (token.count '"') := by
      simp [Nat.even_add, heven]
    cases tokens with
    | nil => simp [join, offsets, startsFrom_token htoken heven, hparity]
    | cons token' tokens =>
      have hcount : quotes + (join [' '] (token :: token' :: tokens)).count '"' =
          quotes + token.count '"' + (join [' '] (token' :: tokens)).count '"' := by
        rw [join_cons_cons, List.count_append, List.count_cons_of_ne (by decide), Nat.add_assoc]
      rw [List.forall_mem_cons, hcount, join_cons_cons, startsFrom_space, offsets]
      constructor
      · rintro ⟨hstarts, htotal⟩
        have hbefore : ∀ i ∈ startsFrom pos quotes false token, i < pos + token.length + 1 :=
          fun i hi => Nat.lt_succ_of_lt (le_of_mem_startsFrom hi).2
        obtain ⟨hone, hrest⟩ := append_eq_cons_of_lt (by omega) hbefore
          (fun i hi => (le_of_mem_startsFrom hi).1) (fun i hi => le_of_mem_offsets hi) hstarts
        have hnext : Even (quotes + token.count '"') := by
          have hjoin : ∃ rest, join [' '] (token' :: tokens) = token' ++ rest := by
            cases tokens with
            | nil => exact ⟨[], by simp [join]⟩
            | cons token'' tokens => exact ⟨_, join_cons_cons token' token'' tokens⟩
          obtain ⟨rest, hjoin⟩ := hjoin
          rw [hjoin] at hrest
          exact even_of_starts (htokens token' List.mem_cons_self) hrest
        exact ⟨⟨(startsFrom_token htoken heven pos).mp hone, hparity.mp hnext⟩,
          (ih htokens hnext _).mp ⟨hrest, htotal⟩⟩
      · rintro ⟨⟨hheld, hpairs⟩, hothers⟩
        obtain ⟨hrest, htotal⟩ := (ih htokens (hparity.mpr hpairs) _).mpr hothers
        rw [(startsFrom_token htoken heven pos).mpr hheld, hrest]
        exact ⟨rfl, htotal⟩

/-- **The words outside quotes are the line's own tokens, and its quotes pair off,** exactly if each
token's quotes pair off and hold its spaces. -/
theorem starts_join_iff {tokens : List (List Char)} (h : ∀ token ∈ tokens, Trimmed token) :
    (starts (join [' '] tokens) = offsets 0 tokens ∧ Even ((join [' '] tokens).count '"')) ↔
      ∀ token ∈ tokens, Held token ∧ Even (token.count '"') := by
  have hjoin := startsFrom_join h (Nat.even_iff.mpr rfl : Even 0) 0
  rwa [Nat.zero_add] at hjoin

/-- Each word outside quotes of a line whose starts are its tokens is a token's first word. -/
theorem map_wordAt_offsets (before : List Char) (tokens : List (List Char)) :
    (offsets before.length tokens).map (wordAt (before ++ join [' '] tokens)) =
      tokens.map fun token => token.takeWhile (!isSpace ·) := by
  induction tokens generalizing before with
  | nil => rfl
  | cons token tokens ih =>
    cases tokens with
    | nil => simp [offsets, join, wordAt_here]
    | cons token' tokens =>
      have hline : before ++ join [' '] (token :: token' :: tokens) =
          (before ++ token ++ [' ']) ++ join [' '] (token' :: tokens) := by
        rw [join_cons_cons]
        simp
      have hlength : (before ++ token ++ [' ']).length = before.length + token.length + 1 := by
        simp [Nat.add_assoc]
      have hih := ih (before ++ token ++ [' '])
      rw [hlength] at hih
      rw [offsets, List.map_cons, List.map_cons, hline, hih, ← hline, join_cons_cons, wordAt_here]
      refine congrArg (· :: _) ?_
      rw [List.takeWhile_append]
      split
      · next hall =>
        rw [(List.takeWhile_prefix (!isSpace ·)).eq_of_length hall]
        simp [isSpace_space]
      · rfl

end BasecradleRouter.Lib.QuoteParity
