/-
# The allow-list of the github route

`loadGithubTrustedActors` reads the allow-list from the environment and refuses one that lists a
captain's bot, a login of the shape `basecradle-<name>-ai[bot]` in any case.

The route compares logins in lower case, and the shape is matched by `re.IGNORECASE`; the two do
not agree on every character.  On a login that is ASCII they do: no accepted list admits a captain's
bot (`accepted_no_captain`).
-/
import BasecradleRouter.Lib.PyStr
import BasecradleRouter.Lib.Runtime
import Mathlib.Data.Finset.Sort
import Mathlib.Data.String.Basic

namespace BasecradleRouter.Config

open BasecradleRouter.Lib

/-- `_GITHUB_TRUSTED_ACTORS_VAR` -/
def githubTrustedActorsVar : String := "BASECRADLE_ROUTER_GITHUB_TRUSTED_ACTORS"

/-- `_split_csv` -/
def splitCsv (raw : String) : Finset String :=
  (((raw.toList.splitOn ',').map fun item => PyStr.strip (String.ofList item)).filter
    (· ≠ "")).toFinset

/-- What stands before and after the name in a captain's login. -/
def captainHead : List Char := "basecradle-".toList

def captainTail : List Char := "-ai[bot]".toList

/-- The pattern characters match the text's, one by one. -/
def matchesFolded (pattern text : List Char) : Bool :=
  (pattern.zip text).all fun (p, c) => ignoreCase p c

/-- `_CAPTAIN_BOT_LOGIN.fullmatch`: the head, one or more characters on one line, the tail. -/
def captainBotLogin (login : String) : Bool :=
  let cs := login.toList
  captainHead.length + captainTail.length < cs.length &&
    matchesFolded captainHead cs &&
    matchesFolded captainTail (cs.drop (cs.length - captainTail.length)) &&
    ((cs.drop captainHead.length).take
      (cs.length - captainHead.length - captainTail.length)).all (· ≠ '\n')

/-- `load_github_trusted_actors`, raising a `ConfigError` with its text. -/
def loadGithubTrustedActors (env : String → Option String) : Except String (Finset String) :=
  match (env githubTrustedActorsVar).filter (· ≠ "") with
  | none => .error (githubTrustedActorsVar ++
      " is required (comma-separated GitHub logins of trusted fleet actors)")
  | some raw =>
    let actors := splitCsv raw
    let captains := actors.filter (captainBotLogin ·)
    if actors = ∅ then .error (githubTrustedActorsVar ++ " is set but lists no actors")
    else if captains = ∅ then .ok actors
    else .error (githubTrustedActorsVar ++ " lists a captain's bot (" ++
      String.intercalate ", " (PyStr.sorted captains) ++
      "), which would let any captain's comment wake another; the github route trusts a " ++
      "captain's bot only as the sender of its own merge")

/-- A list that is accepted holds no captain's bot. -/
theorem not_captainBotLogin {env : String → Option String} {actors : Finset String}
    (h : loadGithubTrustedActors env = .ok actors) {actor : String} (hactor : actor ∈ actors) :
    captainBotLogin actor = false := by
  unfold loadGithubTrustedActors at h
  split at h
  · cases h
  · next raw _ =>
    simp only at h
    split at h
    · cases h
    · split at h
      · next hnone =>
        cases h
        simpa using Finset.filter_eq_empty_iff.mp hnone hactor
      · cases h

/-! ## Letters that match alike -/

theorem matchesFolded_of_sameLetters : ∀ {pattern cs ds : List Char},
    List.Forall₂ SameLetter cs ds → matchesFolded pattern ds = true →
      matchesFolded pattern cs = true
  | [], _, _, _, _ => rfl
  | _ :: _, [], [], _, _ => rfl
  | p :: pattern, c :: cs, d :: ds, hletters, hds => by
    rw [List.forall₂_cons] at hletters
    simp only [matchesFolded, List.zip_cons_cons, List.all_cons, Bool.and_eq_true] at hds ⊢
    exact ⟨ignoreCase_of_sameLetter hletters.1 hds.1,
      matchesFolded_of_sameLetters hletters.2 hds.2⟩

/-- A letter of the same lower case as one that is no newline is no newline. -/
theorem ne_newline_of_sameLetter {c d : Char} (h : SameLetter c d) (hd : d ≠ '\n') :
    c ≠ '\n' := by
  rintro rfl
  rcases h.2 with ⟨-, hlower⟩ | ⟨hkelvin, -⟩
  · have hdn : asciiChar d = true → d.toLower = '\n' → d = '\n' :=
      fun hd => ascii_forall (P := fun d => d.toLower = '\n' → d = '\n') (by decide +kernel) hd
    exact hd (hdn h.1 hlower)
  · exact absurd hkelvin (by decide)

theorem all_ne_newline_of_sameLetters : ∀ {cs ds : List Char}, List.Forall₂ SameLetter cs ds →
    ds.all (· ≠ '\n') = true → cs.all (· ≠ '\n') = true
  | [], [], _, _ => rfl
  | c :: cs, d :: ds, hletters, hds => by
    rw [List.forall₂_cons] at hletters
    simp only [List.all_cons, Bool.and_eq_true, decide_eq_true_eq] at hds ⊢
    exact ⟨ne_newline_of_sameLetter hletters.1 hds.1,
      all_ne_newline_of_sameLetters hletters.2 hds.2⟩

/-- A login with the letters of a captain's bot has its shape. -/
theorem captainBotLogin_of_sameLetters {actor login : String}
    (hletters : List.Forall₂ SameLetter actor.toList login.toList)
    (hlogin : captainBotLogin login = true) : captainBotLogin actor = true := by
  simp only [captainBotLogin, Bool.and_eq_true] at hlogin ⊢
  rw [hletters.length_eq]
  obtain ⟨⟨⟨hlength, hhead⟩, htail⟩, hmiddle⟩ := hlogin
  exact ⟨⟨⟨hlength, matchesFolded_of_sameLetters hletters hhead⟩,
    matchesFolded_of_sameLetters (List.forall₂_drop _ hletters) htail⟩,
    all_ne_newline_of_sameLetters (List.forall₂_take _ (List.forall₂_drop _ hletters)) hmiddle⟩

/-- **No list that is accepted admits a captain's bot**: no entry has the lower case of an ASCII
login of that shape. -/
theorem accepted_no_captain (py : Runtime) {env : String → Option String}
    {actors : Finset String} (h : loadGithubTrustedActors env = .ok actors) {login : String}
    (hascii : isAscii login = true) (hlogin : captainBotLogin login = true) :
    py.lower login ∉ actors.image py.lower := by
  intro hmem
  obtain ⟨actor, hactor, hlower⟩ := Finset.mem_image.mp hmem
  have hcaptain : captainBotLogin actor = true :=
    captainBotLogin_of_sameLetters (py.sameLetters_of_lower_eq hascii hlower) hlogin
  exact absurd hcaptain (by rw [not_captainBotLogin h hactor]; decide)

end BasecradleRouter.Config
