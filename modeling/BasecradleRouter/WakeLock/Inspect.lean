/-
# Reading the wake lock

The NOC's lock file stands at a path that only the agent's slug decides.  `WakeLockGuard.inspect`
reads it and decides: no file and the wake may fire, a live lock and it may not, an expired one and
it may, a file that cannot be read as a lock and it may not, a file that cannot be read at all and
it may.  `Documented` is that table.

Three contents leave it, each because an exception is not the one its `except` clause names: bytes
that are not UTF-8 are a `ValueError` and so an unreadable file, and what `json.loads` raises beside
a decode error, or `astimezone` at the calendar's ends, nobody catches.  `inspect_documented` says
that these are all there are.
-/
import BasecradleRouter.Lib.PyStr
import BasecradleRouter.Lib.Runtime
import BasecradleRouter.Wake
import BasecradleRouter.WakeLock

namespace BasecradleRouter.WakeLock

open BasecradleRouter.Lib

/-! ## 1. A file as text -/

/-- What the operating system answers an `open` and a `read` with. -/
inductive FileRead
  /-- `FileNotFoundError` -/
  | missing
  /-- Any other `OSError`, by its text. -/
  | fault (text : String)
  | bytes (content : List UInt8)
  deriving DecidableEq

/-- How the interpreter reads text. -/
structure TextReader where
  /-- `json.loads(text)` -/
  loads : String → Except LoadsError Json
  /-- The text of the `UnicodeDecodeError` on bytes that are not UTF-8. -/
  decodeError : List UInt8 → String

/-- `bytes.decode("utf-8")` -/
def decodeUtf8 (bytes : List UInt8) : Option String := String.fromUTF8? bytes.toByteArray

/-- The line ends of a file opened as text. -/
def universalNewlines : List Char → List Char
  | [] => []
  | '\r' :: '\n' :: cs => '\n' :: universalNewlines cs
  | '\r' :: cs => '\n' :: universalNewlines cs
  | c :: cs => c :: universalNewlines cs

/-- `handle.read()` -/
def readText (bytes : List UInt8) : Option String :=
  (decodeUtf8 bytes).map fun text => String.ofList (universalNewlines text.toList)

/-! ## 2. A timestamp -/

/-- What is given to `fromisoformat`: the text without the white space around it, a final `Z`
spelled out; nothing where there is no text. -/
def isoText (value : String) : Option String :=
  let text := PyStr.strip value
  if text = "" then none
  else if text.toList.getLast? = some 'Z' ∨ text.toList.getLast? = some 'z' then
    some (String.ofList text.toList.dropLast ++ "+00:00")
  else some text

/-- `_parse_iso8601` -/
def parseIso8601 (py : Runtime) (value : Json) : Except Wake.Raised (Option Utc) :=
  match value.asStr.bind isoText with
  | none => .ok none
  | some text =>
    match py.fromisoformat text with
    | none => .ok none
    | some (.naive wall) => .ok (some wall)
    | some (.aware d) =>
      match d.astimezoneUtc with
      | some utc => .ok (some utc)
      | none => .error (.other "date value out of range")

/-! ## 3. The guard -/

/-- `_unparseable(reason)` -/
def unparseable (reason : String) : WakeLockDecision :=
  ⟨.unparseable, "wake_lock_unparseable: " ++ reason, reason, "", ""⟩

/-- The guard, with the directory it reads. -/
structure WakeLockGuard where
  lockDir : String

namespace WakeLockGuard

variable (guard : WakeLockGuard) (py : Runtime) (reader : TextReader)

/-- `path_for`: `os.path.join` of the directory and the slug's file. -/
def pathFor (slug : String) : String :=
  let file := slug ++ ".lock"
  if file.toList.head? = some '/' then file
  else if guard.lockDir = "" ∨ guard.lockDir.toList.getLast? = some '/' then guard.lockDir ++ file
  else guard.lockDir ++ "/" ++ file

/-- `_decide` -/
def decideRaw (raw : String) (now : Utc) : Except Wake.Raised WakeLockDecision :=
  match reader.loads raw with
  | .error (.decode message) => .ok (unparseable ("invalid JSON: " ++ message))
  | .error (.other name) => .error (.other name)
  | .ok (.obj data) =>
    match parseIso8601 py (Fields.get data "expires_at") with
    | .error exc => .error exc
    | .ok none => .ok (unparseable "missing or invalid expires_at")
    | .ok (some expiresAt) =>
      if now.micros < expiresAt.micros then
        .ok ⟨.held, "wake_lock_held until " ++ expiresAt.isoformat, "",
          (Fields.get data "reason").asStr.getD "", expiresAt.isoformat⟩
      else
        .ok ⟨.stale, "wake_lock_stale (expired " ++ expiresAt.isoformat ++ ")", "", "",
          expiresAt.isoformat⟩
  | .ok _ => .ok (unparseable "lock is not a JSON object")

/-- The slugs that are not even looked up. -/
def refusesSlug (slug : String) : Bool :=
  slug != PyStr.basename slug || ["", ".", ".."].contains slug

/-- `inspect`: `read` is what the operating system answers at the slug's path. -/
def inspect (slug : String) (read : FileRead) (now : Utc) : Except Wake.Raised WakeLockDecision :=
  if refusesSlug slug then
    .ok ⟨.unreadable, "unsafe slug " ++ py.repr slug, "unsafe-slug", "", ""⟩
  else if (guard.pathFor slug).toList.contains '\x00' then
    .ok ⟨.unreadable, "unreadable: embedded null byte", "embedded null byte", "", ""⟩
  else
    match read with
    | .missing => .ok .noLock
    | .fault text => .ok ⟨.unreadable, "unreadable: " ++ text, text, "", ""⟩
    | .bytes content =>
      match readText content with
      | none =>
        .ok ⟨.unreadable, "unreadable: " ++ reader.decodeError content,
          reader.decodeError content, "", ""⟩
      | some raw => decideRaw py reader raw now

/-! ## 4. What is documented -/

/-- A slug whose path stays in the directory and can be opened. -/
def SafeSlug (slug : String) : Prop :=
  refusesSlug slug = false ∧ '\x00' ∉ (guard.pathFor slug).toList

end WakeLockGuard

/-- The time a field stands for. -/
inductive Denotes (py : Runtime) : Json → Utc → Prop
  | naive {value text wall} (htext : isoText value = some text)
    (hread : py.fromisoformat text = some (.naive wall)) : Denotes py (.str value) wall
  | aware {value text d utc} (htext : isoText value = some text)
    (hread : py.fromisoformat text = some (.aware d)) (hutc : utc.instant = d.instant) :
    Denotes py (.str value) utc

/-- A file that holds a JSON object with a readable `expires_at`. -/
def Expires (py : Runtime) (reader : TextReader) (content : List UInt8) (expiresAt : Utc) : Prop :=
  ∃ text fields, readText content = some text ∧ reader.loads text = .ok (.obj fields) ∧
    Denotes py (Fields.get fields "expires_at") expiresAt

/-- The decisions, as the guard's documentation lists them. -/
inductive Documented (guard : WakeLockGuard) (py : Runtime) (reader : TextReader) (slug : String)
    (now : Utc) : FileRead → WakeLockState → Prop
  | unsafeSlug {read} (hslug : ¬ guard.SafeSlug slug) :
    Documented guard py reader slug now read .unreadable
  | absent (hslug : guard.SafeSlug slug) : Documented guard py reader slug now .missing .absent
  | fault {text} (hslug : guard.SafeSlug slug) :
    Documented guard py reader slug now (.fault text) .unreadable
  | held {content expiresAt} (hslug : guard.SafeSlug slug)
    (hexpires : Expires py reader content expiresAt) (hnow : now.instant < expiresAt.instant) :
    Documented guard py reader slug now (.bytes content) .held
  | stale {content expiresAt} (hslug : guard.SafeSlug slug)
    (hexpires : Expires py reader content expiresAt) (hnow : expiresAt.instant ≤ now.instant) :
    Documented guard py reader slug now (.bytes content) .stale
  | malformed {content} (hslug : guard.SafeSlug slug)
    (hexpires : ∀ expiresAt, ¬ Expires py reader content expiresAt) :
    Documented guard py reader slug now (.bytes content) .unparseable

/-- Nothing in a file raises what `inspect` does not expect: its bytes are UTF-8, `json.loads`
raises a decode error at most, and an aware `expires_at` has a date in UTC. -/
def Expected (py : Runtime) (reader : TextReader) (content : List UInt8) : Prop :=
  ∃ text, readText content = some text ∧ (∀ name, reader.loads text ≠ .error (.other name)) ∧
    ∀ fields value iso d, reader.loads text = .ok (.obj fields) →
      Fields.get fields "expires_at" = .str value → isoText value = some iso →
      py.fromisoformat iso = some (.aware d) → 0 ≤ d.instant ∧ d.instant < spanMicros

/-! ## 5. What `inspect` does -/

section

variable {py : Runtime} {reader : TextReader}

/-- The conversion to UTC, by the instant. -/
theorem astimezoneUtc_eq_some {d : Datetime} {utc : Utc} :
    d.astimezoneUtc = some utc ↔ utc.instant = d.instant := by
  unfold Datetime.astimezoneUtc Utc.instant
  have hlt := utc.micros_lt
  split
  · next hrange =>
    rw [Option.some.injEq, Utc.mk.injEq]
    omega
  · next hrange =>
    refine iff_of_false (fun h => by cases h) fun heq => hrange ?_
    omega

/-- **A timestamp that is read** is the one time its field stands for. -/
theorem parseIso8601_some {v : Json} {utc : Utc} :
    parseIso8601 py v = .ok (some utc) ↔ Denotes py v utc := by
  unfold parseIso8601
  constructor
  · intro h
    split at h
    · cases h
    · next text htext =>
      obtain ⟨value, hvalue, htext⟩ := Option.bind_eq_some_iff.mp htext
      obtain rfl : v = .str value := by
        cases v <;> cases hvalue
        rfl
      split at h
      · cases h
      · next wall hread =>
        cases h
        exact .naive htext hread
      · next d hread =>
        split at h
        · next utc' hutc =>
          cases h
          exact .aware htext hread (astimezoneUtc_eq_some.mp hutc)
        · cases h
  · intro h
    cases h with
    | naive htext hread =>
      simp only [Json.asStr, Option.bind_some, htext, hread]
    | aware htext hread hutc =>
      simp only [Json.asStr, Option.bind_some, htext, hread, astimezoneUtc_eq_some.mpr hutc]

/-- **A timestamp that raises** is an aware one without a date in UTC. -/
theorem parseIso8601_raises {v : Json} {exc : Wake.Raised} (h : parseIso8601 py v = .error exc) :
    ∃ value iso d, v = .str value ∧ isoText value = some iso ∧
      py.fromisoformat iso = some (.aware d) ∧ ¬ (0 ≤ d.instant ∧ d.instant < spanMicros) := by
  unfold parseIso8601 at h
  split at h
  · cases h
  · next iso hiso =>
    obtain ⟨value, hvalue, hiso⟩ := Option.bind_eq_some_iff.mp hiso
    obtain rfl : v = .str value := by
      cases v <;> cases hvalue
      rfl
    split at h
    · cases h
    · cases h
    · next d hread =>
      split at h
      · cases h
      · next hutc =>
        refine ⟨value, iso, d, rfl, hiso, hread, fun hrange => ?_⟩
        rw [Datetime.astimezoneUtc, dif_pos hrange] at hutc
        cases hutc

theorem Denotes.unique {v : Json} {utc utc' : Utc} (h : Denotes py v utc)
    (h' : Denotes py v utc') : utc = utc' :=
  Option.some.inj (Except.ok.inj ((parseIso8601_some.mpr h).symm.trans (parseIso8601_some.mpr h')))

variable {guard : WakeLockGuard} {slug : String} {now : Utc}

/-- A slug that is safe is looked up. -/
theorem inspect_safe (hslug : guard.SafeSlug slug) (read : FileRead) :
    guard.inspect py reader slug read now =
      match read with
      | .missing => .ok .noLock
      | .fault text => .ok ⟨.unreadable, "unreadable: " ++ text, text, "", ""⟩
      | .bytes content =>
        match readText content with
        | none =>
          .ok ⟨.unreadable, "unreadable: " ++ reader.decodeError content,
            reader.decodeError content, "", ""⟩
        | some raw => WakeLockGuard.decideRaw py reader raw now := by
  have hnul : ¬ (guard.pathFor slug).toList.contains '\x00' = true := by
    rw [List.contains_iff_mem]
    exact hslug.2
  unfold WakeLockGuard.inspect
  rw [hslug.1, if_neg Bool.false_ne_true, if_neg hnul]

/-- Any other slug is not, whatever its file holds. -/
theorem inspect_unsafe (py : Runtime) (reader : TextReader) (now : Utc)
    (hslug : ¬ guard.SafeSlug slug) (read : FileRead) :
    ∃ d, guard.inspect py reader slug read now = .ok d ∧ d.state = .unreadable := by
  unfold WakeLockGuard.inspect
  cases hrefuses : WakeLockGuard.refusesSlug slug with
  | true => exact ⟨_, rfl, rfl⟩
  | false =>
    have hnul : (guard.pathFor slug).toList.contains '\x00' = true := by
      rw [List.contains_iff_mem]
      by_contra hnot
      exact hslug ⟨hrefuses, hnot⟩
    rw [if_neg Bool.false_ne_true, if_pos hnul]
    exact ⟨_, rfl, rfl⟩

/-- **A file that raises nothing unexpected** is decided as documented. -/
theorem inspect_bytes (hslug : guard.SafeSlug slug) {content : List UInt8}
    (h : Expected py reader content) :
    ∃ d, guard.inspect py reader slug (.bytes content) now = .ok d ∧
      Documented guard py reader slug now (.bytes content) d.state := by
  obtain ⟨text, htext, hloads, hrange⟩ := h
  have hnone : (∀ fields, reader.loads text = .ok (.obj fields) →
      ∀ expiresAt, ¬ Denotes py (Fields.get fields "expires_at") expiresAt) →
        Documented guard py reader slug now (.bytes content) .unparseable := by
    refine fun hdenotes => .malformed hslug ?_
    rintro expiresAt ⟨text', fields, htext', hfields, hexpires⟩
    rw [htext] at htext'
    cases htext'
    exact hdenotes fields hfields expiresAt hexpires
  rw [inspect_safe hslug]
  dsimp only
  rw [htext]
  dsimp only
  unfold WakeLockGuard.decideRaw
  cases hread : reader.loads text with
  | error exc =>
    cases exc with
    | decode message =>
      refine ⟨_, rfl, hnone fun fields hfields => ?_⟩
      rw [hread] at hfields
      cases hfields
    | other name => exact absurd hread (hloads name)
  | ok v =>
    cases v with
    | obj fields =>
      dsimp only
      cases hparse : parseIso8601 py (Fields.get fields "expires_at") with
      | error exc =>
        obtain ⟨value, iso, d, hvalue, hiso, haware, hout⟩ := parseIso8601_raises hparse
        exact absurd (hrange fields value iso d hread hvalue hiso haware) hout
      | ok expiresAt =>
        cases expiresAt with
        | none =>
          refine ⟨_, rfl, hnone fun fields' hfields expiresAt hdenotes => ?_⟩
          rw [hread] at hfields
          cases hfields
          rw [parseIso8601_some.mpr hdenotes] at hparse
          cases hparse
        | some expiresAt =>
          have hexpires : Expires py reader content expiresAt :=
            ⟨text, fields, htext, hread, parseIso8601_some.mp hparse⟩
          dsimp only
          by_cases hnow : now.micros < expiresAt.micros
          · rw [if_pos hnow]
            exact ⟨_, rfl, .held hslug hexpires (Int.ofNat_lt.mpr hnow)⟩
          · rw [if_neg hnow]
            exact ⟨_, rfl, .stale hslug hexpires (Int.ofNat_le.mpr (Nat.not_lt.mp hnow))⟩
    | _ =>
      refine ⟨_, rfl, hnone fun fields hfields => ?_⟩
      rw [hread] at hfields
      cases hfields

/-- **A file that raises something unexpected** is not decided as documented: `inspect` raises, or
takes it for a file that cannot be read. -/
theorem inspect_unexpected (hslug : guard.SafeSlug slug) {content : List UInt8}
    {d : WakeLockDecision}
    (hinspect : guard.inspect py reader slug (.bytes content) now = .ok d)
    (hdocumented : Documented guard py reader slug now (.bytes content) d.state) :
    Expected py reader content := by
  rw [inspect_safe hslug] at hinspect
  dsimp only at hinspect
  cases htext : readText content with
  | none =>
    rw [htext] at hinspect
    cases hinspect
    cases hdocumented with
    | unsafeSlug hunsafe => exact absurd hslug hunsafe
  | some text =>
    rw [htext] at hinspect
    dsimp only at hinspect
    unfold WakeLockGuard.decideRaw at hinspect
    refine ⟨text, htext, fun name hloads => ?_,
      fun fields value iso d' hfields hvalue hiso haware => ?_⟩
    · rw [hloads] at hinspect
      cases hinspect
    · by_contra hout
      have hutc : d'.astimezoneUtc = none := dif_neg hout
      rw [hfields] at hinspect
      dsimp only at hinspect
      simp only [hvalue, parseIso8601, Json.asStr, Option.bind_some, hiso, haware, hutc]
        at hinspect
      cases hinspect

/-- What the guard is free to expect: a slug it refuses, no file to read, or one that raises nothing
unexpected. -/
def Legible (guard : WakeLockGuard) (py : Runtime) (reader : TextReader) (slug : String)
    (read : FileRead) : Prop :=
  guard.SafeSlug slug → ∀ content, read = .bytes content → Expected py reader content

end

/-- **The decision is total and fails in the documented direction** exactly where the file raises
nothing that no `except` clause is for. -/
theorem inspect_documented (guard : WakeLockGuard) (py : Runtime) (reader : TextReader)
    (slug : String) (read : FileRead) (now : Utc) :
    (∃ d, guard.inspect py reader slug read now = .ok d ∧
      Documented guard py reader slug now read d.state) ↔ Legible guard py reader slug read := by
  by_cases hslug : guard.SafeSlug slug
  · cases read with
    | missing =>
      rw [inspect_safe hslug]
      exact iff_of_true ⟨_, rfl, .absent hslug⟩ fun _ _ => nofun
    | fault text =>
      rw [inspect_safe hslug]
      exact iff_of_true ⟨_, rfl, .fault hslug⟩ fun _ _ => nofun
    | bytes content =>
      constructor
      · rintro ⟨d, hinspect, hdocumented⟩ - content' heq
        cases heq
        exact inspect_unexpected hslug hinspect hdocumented
      · exact fun h => inspect_bytes hslug (h hslug content rfl)
  · obtain ⟨d, hinspect, hstate⟩ := inspect_unsafe py reader now hslug read
    exact iff_of_true ⟨d, hinspect, hstate ▸ .unsafeSlug hslug⟩ fun h => absurd h hslug

/-- An interpreter that takes every text for an empty object. -/
def emptyObjects : TextReader where
  loads _ := .ok (.obj [])
  decodeError _ := "'utf-8' codec can't decode byte 0xff in position 0: invalid start byte"

/-- A lock file that is one byte of no UTF-8 text is taken for a file that cannot be read, and the
agent may be woken. -/
theorem not_documented_bytes : ¬ ∃ d,
    (⟨"/run/basecradle-noc/wake-locks"⟩ : WakeLockGuard).inspect
      (.ascii (fun _ => .ok (.obj [])) fun _ => none) emptyObjects "nova"
        (.bytes [0xff]) .earliest =
        .ok d ∧
    Documented ⟨"/run/basecradle-noc/wake-locks"⟩ (.ascii (fun _ => .ok (.obj [])) fun _ => none)
      emptyObjects "nova" .earliest (.bytes [0xff]) d.state := by
  have hslug : (⟨"/run/basecradle-noc/wake-locks"⟩ : WakeLockGuard).SafeSlug "nova" := by
    constructor
    · decide +kernel
    · decide +kernel
  have hbytes : readText [0xff] = none := by decide +kernel
  rintro ⟨d, hinspect, hdocumented⟩
  obtain ⟨text, htext, -⟩ := inspect_unexpected hslug hinspect hdocumented
  rw [hbytes] at htext
  cases htext

end BasecradleRouter.WakeLock
