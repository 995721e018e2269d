/-
# The evidence stays coherent

An accept calls the evidence of its source's sink at most twice: when the signature is told, and,
where that held, when the route has decided (`accept_calls`).  So a sink has accepted at least as
often as it has decided, whatever else happens between the two calls.

`evidence_coherent` is about a run from an empty document: any calls, restarts among them, and
flushes that do not reach the disk.
-/
import BasecradleRouter.Evidence.Coherence
import BasecradleRouter.Pipeline.Accept
import Mathlib.Algebra.Order.BigOperators.Group.List

namespace BasecradleRouter.Pipeline

open BasecradleRouter.Lib BasecradleRouter.Logfmt BasecradleRouter.Models BasecradleRouter.Routes
open BasecradleRouter.Evidence

variable {σ : Type}

/-! ## 1. The calls of an accept -/

/-- The call when the signature held. -/
def acceptedCall (source : String) (f : Flush) : Timed := ⟨.deliveryAccepted source, f.now, f.stamp⟩

/-- The call when the route has decided. -/
def decidedCall (source : String) (woke : Bool) (f : Flush) : Timed :=
  ⟨.deliveryDecision source woke, f.now, f.stamp⟩

/-- The call when the signature did not hold. -/
def rejectedCall (source reason : String) (f : Flush) : Timed :=
  ⟨.deliveryRejected source reason, f.now, f.stamp⟩

/-- A call to the evidence, whether its flush returns or raises, and then nothing more. -/
theorem recordEvidence_calls {α : Type} (operation : Operation) (f : Flush)
    (rest : Unit → Py (Intake σ) Refusal α) (hrest : ∀ s, ((rest ()).run s).2.calls = s.calls)
    (s : Intake σ) : ((Intake.recordEvidence operation f >>= rest).run s).2.calls =
      s.calls ++ [⟨operation, f.now, f.stamp⟩] := by
  unfold Intake.recordEvidence
  cases hraised : f.raised with
  | none => exact hrest _
  | some exc => rfl

theorem resolve_calls (core : Core σ) (source : String) (event : Event) (s : Intake σ) :
    ((core.resolve source event).run s).2.calls = s.calls := by
  unfold Core.resolve
  cases core.config.agents.agentForRecipient core.py event.recipient with
  | error text => rfl
  | ok agent => rfl

/-- After the signature an accept calls the evidence once more, or not at all. -/
theorem read_calls (core : Core σ) (source : String) (route : Route σ) (request : InboundRequest)
    (f : Flush) (s : Intake σ) :
    ((core.read source route request f).run s).2.calls = s.calls ∨
      ∃ woke, ((core.read source route request f).run s).2.calls =
        s.calls ++ [decidedCall source woke f] := by
  unfold Core.read
  rw [Py.run_bind, Py.run_catching]
  dsimp only
  have hobject : ((Intake.route (route.normalize request)).run s).2.calls = s.calls := rfl
  cases hread : ((Intake.route (route.normalize request)).run s).1 with
  | error exc =>
    cases exc with
    | payload text => exact Or.inl hobject
    | untrusted text => exact Or.inl hobject
    | signature text => exact Or.inl hobject
    | config text => exact Or.inl hobject
    | other text => exact Or.inl hobject
  | ok made =>
    cases made with
    | none =>
      refine Or.inr ⟨false, ?_⟩
      rw [← hobject]
      exact recordEvidence_calls _ _ _ (fun _ => rfl) _
    | some event =>
      refine Or.inr ⟨true, ?_⟩
      rw [← hobject]
      exact recordEvidence_calls _ _ _ (fun s => resolve_calls core source event _) _

/-- The calls an accept may make, in their order. -/
inductive AcceptCalls (source : String) : List Timed → Prop
  | none : AcceptCalls source []
  | rejected (reason : String) (f : Flush) : AcceptCalls source [rejectedCall source reason f]
  | accepted (f : Flush) : AcceptCalls source [acceptedCall source f]
  | decided (woke : Bool) (f f' : Flush) :
    AcceptCalls source [acceptedCall source f, decidedCall source woke f']

/-- **What an accept writes**: that the delivery was rejected, or that it was accepted and what was
then decided. -/
theorem accept_calls (core : Core σ) (source : String) (request : InboundRequest) (f : Flushes)
    (object : σ) :
    AcceptCalls source ((core.accept source request f).run (.enter object)).2.calls := by
  have hbody : AcceptCalls source
      ((core.acceptBody source request f).run (.enter object)).2.calls := by
    unfold Core.acceptBody
    cases core.registry.get core.py source with
    | error text => exact .none
    | ok route =>
      dsimp only
      rw [Py.run_bind]
      simp only [Intake.record, Py.run_change]
      rw [Py.run_bind, Py.run_catching]
      dsimp only
      generalize hs : ((core.verify route source request).run _).2 = s
      have hcalls : s.calls = [] := by
        rw [← hs]
        unfold Core.verify
        rw [Py.run_bind, Py.run_ofExcept]
        cases core.routeSecret route source with
        | error exc => rfl
        | ok secret => rfl
      cases ((core.verify route source request).run _).1 with
      | error exc =>
        cases exc with
        | signature text =>
          have hcall := recordEvidence_calls (.deliveryRejected source text) f.verified
            (fun _ => do
              Intake.record .verify .rejected [("source", .str source), ("error", .str text)]
              return (none : Option (Agent × Event))) (fun _ => rfl) s
          rw [hcalls] at hcall
          exact hcall ▸ .rejected text f.verified
        | config text =>
          have hcall := recordEvidence_calls
            (.deliveryRejected source ("no secret configured: " ++ text)) f.verified
            (fun _ => do
              Intake.record .verify .failed [("source", .str source), ("error", .str text)]
              return (none : Option (Agent × Event))) (fun _ => rfl) s
          rw [hcalls] at hcall
          exact hcall ▸ .rejected _ f.verified
        | payload text => exact hcalls ▸ .none
        | untrusted text => exact hcalls ▸ .none
        | other text => exact hcalls ▸ .none
      | ok _ =>
        dsimp only
        rw [Py.run_bind]
        unfold Intake.recordEvidence
        rw [Py.run_bind, Py.run_change]
        dsimp only
        rw [Py.run_ofExcept]
        have haccepted : s.calls ++ [acceptedCall source f.verified] =
            [acceptedCall source f.verified] := by rw [hcalls, List.nil_append]
        cases f.verified.raised with
        | some exc =>
          show AcceptCalls source (s.calls ++ [acceptedCall source f.verified])
          rw [haccepted]
          exact .accepted f.verified
        | none =>
          dsimp only [Option.elim_none]
          rw [Py.run_bind, Py.run_change]
          dsimp only
          generalize hs' : Intake.mk s.object _ _ = s'
          have hcalls' : s'.calls = [acceptedCall source f.verified] := by
            rw [← hs', ← haccepted]
            rfl
          rcases read_calls core source route request f.decided s' with hread | ⟨woke, hread⟩
          · rw [hread, hcalls']
            exact .accepted f.verified
          · rw [hread, hcalls']
            exact .decided woke f.verified f.decided
  unfold Core.accept
  rw [Py.run_handle]
  rcases hrun : (core.acceptBody source request f).run (.enter object) with ⟨exc | pending, s⟩
  · rw [hrun] at hbody
    exact hbody
  · rw [hrun] at hbody
    exact hbody

/-! ## 2. What a sink has in hand -/

/-- What a call adds to a sink's acceptances, or takes by a decision. -/
def weight (route : String) : Operation → ℤ
  | .deliveryAccepted route' => if route' = route then 1 else 0
  | .deliveryDecision route' _ => if route' = route then -1 else 0
  | _ => 0

/-- The acceptances of a sink that no decision has followed. -/
def slackOf (sink : Record) : ℤ :=
  amount "accepted" sink - (amount "woke" sink + amount "ignored" sink)

/-- A sink with one more of a counter. -/
theorem slackOf_count {float : FloatText} {sink sink' : Record} (h : sink.Typed sinkSchema)
    {counter : String} {values : List (String × Json)}
    (hcounter : counter ∈ ["accepted", "rejected", "woke", "ignored"])
    (hvalues : ∀ name ∈ ["accepted", "rejected", "woke", "ignored"], name ∉ values.map Prod.fst)
    (hcount : Record.count float counter values sink = some sink') :
    ∀ name ∈ ["accepted", "rejected", "woke", "ignored"],
      amount name sink' = amount name sink + if name = counter then 1 else 0 := by
  have hkind : ∀ name ∈ ["accepted", "rejected", "woke", "ignored"],
      sinkSchema.lookup name = some .counter := by decide
  obtain ⟨n, hn⟩ := h.counter (hkind counter hcounter)
  intro name hname
  split
  · next heq =>
    rw [heq, amount_of_eq (count_counter hn hcount (hvalues counter hcounter)), amount_of_eq hn]
  · next hne =>
    have hsame : sink' name = sink name :=
      count_of_notMem hn hcount (by simp [hne, hvalues name hname])
    unfold amount
    rw [hsame, add_zero]

/-- The acceptances of a route's sink that no decision has followed. -/
def slack (doc : Document) (route : String) : ℤ := slackOf (doc.sink route)

theorem slack_putSink (doc : Document) (route route' : String) (sink : Record) :
    slack { doc with deliverySinks := doc.deliverySinks.insert route' sink } route =
      if route = route' then slackOf sink else slack doc route := by
  unfold slack Document.sink
  dsimp only
  split
  · next heq => rw [heq, Finmap.lookup_insert, Option.getD_some]
  · next hne => rw [Finmap.lookup_insert_of_ne _ hne]

/-- **What a call does to a sink's slack.** -/
theorem slack_record {float : FloatText} {doc doc' : Document} (h : doc.Typed) {now : Utc}
    {operation : Operation} (hrecord : doc.record float now operation = some doc')
    (route : String) : slack doc' route = slack doc route + weight route operation := by
  have hsink : ∀ {route' counter values}, counter ∈ ["accepted", "rejected", "woke", "ignored"] →
      (∀ name ∈ ["accepted", "rejected", "woke", "ignored"], name ∉ values.map Prod.fst) →
      doc.amendSink route' (Record.count float counter values) = some doc' →
      slack doc' route = slack doc route + if route' = route then
        ((if "accepted" = counter then 1 else 0) -
          ((if "woke" = counter then 1 else 0) + if "ignored" = counter then 1 else 0)) else 0 := by
    intro route' counter values hcounter hvalues hamend
    obtain ⟨sink, hcount, hdoc'⟩ := Option.bind_eq_some_iff.mp hamend
    cases hdoc'
    rw [slack_putSink]
    have hamounts := slackOf_count (h.sink route') hcounter hvalues hcount
    by_cases heq : route' = route
    · subst heq
      rw [if_pos rfl, if_pos rfl, slack, slackOf, slackOf, hamounts "accepted" (by simp),
        hamounts "woke" (by simp), hamounts "ignored" (by simp)]
      omega
    · rw [if_neg (Ne.symm heq), if_neg heq, add_zero]
  have hwake : ∀ {agent route' onWake onRow}, doc.amendWake agent route' onWake onRow = some doc' →
      slack doc' route = slack doc route := by
    intro agent route' onWake onRow hamend
    obtain ⟨attributes, -, hamend⟩ := Option.bind_eq_some_iff.mp hamend
    obtain ⟨row, -, hdoc'⟩ := Option.bind_eq_some_iff.mp hamend
    cases hdoc'
    rfl
  cases operation with
  | deliveryAccepted route' => exact hsink (by simp) (by simp) hrecord
  | deliveryRejected route' reason =>
    have hslack := hsink (by simp) (by simp) hrecord
    simpa [weight] using hslack
  | deliveryDecision route' woke =>
    cases woke with
    | true => exact hsink (by simp) (by simp) hrecord
    | false => exact hsink (by simp) (by simp) hrecord
  | wakeOk agent delivery route' synthetic =>
    exact (hwake hrecord).trans (add_zero _).symm
  | wakeFailed agent reason route' synthetic =>
    exact (hwake hrecord).trans (add_zero _).symm
  | wakeRefused agent reason route' synthetic =>
    exact (hwake hrecord).trans (add_zero _).symm
  | wakeDeduped agent route' synthetic =>
    exact (hwake hrecord).trans (add_zero _).symm
  | queueDepth agent pending =>
    cases hrecord
    exact (add_zero _).symm
  | freezeSelftest status detail =>
    cases hrecord
    exact (add_zero _).symm

/-! ## 3. Accepts under way -/

/-- A call about a delivery. -/
def aboutDelivery : Operation → Bool
  | .deliveryAccepted _ => true
  | .deliveryRejected _ _ => true
  | .deliveryDecision _ _ => true
  | _ => false

/-- Events in which the calls about deliveries are those of accepts, each accept's in its order and
as far as a restart lets it come, other calls between them.  `waiting` holds what the accepts under
way have still to call. -/
inductive FromAccepts : List (List Timed) → List Happening → Prop
  | done {waiting} : FromAccepts waiting []
  | accept {waiting events} {σ : Type} (core : Core σ) (source : String) (request : InboundRequest)
    (f : Flushes) (object : σ)
    (h : FromAccepts (((core.accept source request f).run (.enter object)).2.calls :: waiting)
      events) :
    FromAccepts waiting events
  | call {before after events} {call : Timed} {rest : List Timed} (reaches : Bool)
    (h : FromAccepts (before ++ rest :: after) events) :
    FromAccepts (before ++ (call :: rest) :: after) (.record call reaches :: events)
  | other {waiting events} {call : Timed} (hcall : aboutDelivery call.operation = false)
    (reaches : Bool) (h : FromAccepts waiting events) :
    FromAccepts waiting (.record call reaches :: events)
  | restart {waiting events} (stamp : Utc) (reaches : Bool) (h : FromAccepts [] events) :
    FromAccepts waiting (.restart stamp reaches :: events)

/-- How far calls to come may bring a sink's slack down. -/
def owed (route : String) : List Timed → ℤ
  | [] => 0
  | call :: calls => max 0 (owed route calls - weight route call.operation)

/-- What all accepts under way owe. -/
def owedAll (route : String) (waiting : List (List Timed)) : ℤ := (waiting.map (owed route)).sum

theorem owed_nonneg (route : String) (calls : List Timed) : 0 ≤ owed route calls := by
  cases calls with
  | nil => exact le_refl _
  | cons call calls => exact le_max_left _ _

theorem owedAll_nonneg (route : String) (waiting : List (List Timed)) :
    0 ≤ owedAll route waiting := by
  refine List.sum_nonneg ?_
  rintro n hn
  obtain ⟨calls, -, rfl⟩ := List.mem_map.mp hn
  exact owed_nonneg route calls

/-- **An accept owes nothing**: it accepts before it decides. -/
theorem owed_of_acceptCalls {source : String} {calls : List Timed} (h : AcceptCalls source calls)
    (route : String) : owed route calls = 0 := by
  cases h with
  | none => rfl
  | rejected reason f => rfl
  | accepted f =>
    show max 0 (0 - if source = route then (1 : ℤ) else 0) = 0
    split <;> rfl
  | decided woke f f' =>
    show max 0 (max 0 (0 - if source = route then (-1 : ℤ) else 0) -
      if source = route then (1 : ℤ) else 0) = 0
    split <;> rfl

/-- A settled and coherent document, whose sinks have in hand what is owed. -/
def Covers (waiting : List (List Timed)) (doc : Document) : Prop :=
  doc.Agrees ∧ ∀ route, owedAll route waiting ≤ slack doc route

theorem covers_durable (waiting : List (List Timed)) : Durable (Covers waiting) where
  settled h := h.1.1
  follows h hsettled hfollows := by
    refine ⟨agrees_durable.follows h.1 hsettled hfollows, fun route => ?_⟩
    unfold slack Document.sink
    rw [hfollows.sinks]
    exact h.2 route

theorem Covers.nil {waiting : List (List Timed)} {doc : Document} (h : Covers waiting doc) :
    Covers [] doc :=
  ⟨h.1, fun route => le_trans (owedAll_nonneg route waiting) (h.2 route)⟩

/-- What a call leaves in hand. -/
theorem Covers.record {float : FloatText} {waiting waiting' : List (List Timed)}
    {doc doc' : Document} (h : Covers waiting doc) {now : Utc} {operation : Operation}
    (hoperation : ¬ operation.RefusesDuplicate)
    (hrecord : doc.record float now operation = some doc')
    (howed : ∀ route, owedAll route waiting' ≤ owedAll route waiting + weight route operation) :
    Covers waiting' doc' := by
  refine ⟨⟨h.1.1.record hoperation hrecord, h.1.2.record h.1.1.typed hrecord⟩, fun route => ?_⟩
  rw [slack_record h.1.1.typed hrecord]
  have hslack := h.2 route
  have howed' := howed route
  omega

variable {json : JsonText} {float : FloatText}

/-- **Accepts, step by step.** -/
theorem fromAccepts_covers (json : JsonText) {waiting : List (List Timed)}
    {events : List Happening} (h : FromAccepts waiting events)
    (hevents : ∀ call reaches, Happening.record call reaches ∈ events →
      ¬ call.operation.RefusesDuplicate)
    {s : Store} (hs : Sound float (Covers waiting) (Covers []) s) :
    ∃ s', s.happenAll json float events = some s' ∧ Covers [] s'.doc := by
  induction h generalizing s with
  | done => exact ⟨s, rfl, hs.doc.nil⟩
  | @accept waiting events σ core source request f object _ ih =>
    refine ih hevents ⟨⟨hs.doc.1, fun route => ?_⟩, hs.file⟩
    have howed := owed_of_acceptCalls (accept_calls core source request f object) route
    unfold owedAll
    rw [List.map_cons, List.sum_cons, howed, zero_add]
    exact hs.doc.2 route
  | @call before after events call rest reaches _ ih =>
    have hcall := hevents call reaches List.mem_cons_self
    obtain ⟨s', hs', hsound⟩ := hs.record json (covers_durable _)
      (covers_durable (before ++ rest :: after)) Covers.nil hcall (fun doc' hdoc' => by
        refine hs.doc.record hcall hdoc' fun route => ?_
        simp only [owedAll, List.map_append, List.map_cons, List.sum_append, List.sum_cons, owed]
        have hmax := le_max_right 0 (owed route rest - weight route call.operation)
        omega) reaches
    obtain ⟨s'', hs'', hcovers⟩ :=
      ih (fun call' reaches' hmem => hevents call' reaches' (List.mem_cons_of_mem _ hmem)) hsound
    exact ⟨s'', (Store.happenAll_cons hs' events).trans hs'', hcovers⟩
  | @other waiting events call hother reaches _ ih =>
    have hcall := hevents call reaches List.mem_cons_self
    obtain ⟨s', hs', hsound⟩ := hs.record json (covers_durable _) (covers_durable waiting)
      Covers.nil hcall (fun doc' hdoc' => by
        refine hs.doc.record hcall hdoc' fun route => ?_
        have hweight : weight route call.operation = 0 := by
          cases hoperation : call.operation <;> rw [hoperation] at hother <;>
            first | rfl | cases hother
        rw [hweight, add_zero]) reaches
    obtain ⟨s'', hs'', hcovers⟩ :=
      ih (fun call' reaches' hmem => hevents call' reaches' (List.mem_cons_of_mem _ hmem)) hsound
    exact ⟨s'', (Store.happenAll_cons hs' events).trans hs'', hcovers⟩
  | @restart waiting events stamp reaches _ ih =>
    obtain ⟨s', hs', hsound⟩ := hs.restart json (covers_durable []) stamp reaches
    obtain ⟨s'', hs'', hcovers⟩ :=
      ih (fun call' reaches' hmem => hevents call' reaches' (List.mem_cons_of_mem _ hmem)) hsound
    exact ⟨s'', (Store.happenAll_cons hs' events).trans hs'', hcovers⟩

/-! ## 4. A run from an empty document -/

/-- **Both granularities, event by event.** -/
theorem happenAll_sound (json : JsonText) (events : List Happening)
    (hevents : ∀ call reaches, Happening.record call reaches ∈ events →
      ¬ call.operation.RefusesDuplicate)
    {s : Store} (hs : Sound float Document.Agrees Document.Agrees s) :
    ∃ s', s.happenAll json float events = some s' ∧
      Sound float Document.Agrees Document.Agrees s' := by
  induction events generalizing s with
  | nil => exact ⟨s, rfl, hs⟩
  | cons event events ih =>
    have hone : ∃ s', s.happen json float event = some s' ∧
        Sound float Document.Agrees Document.Agrees s' := by
      cases event with
      | record call reaches =>
        have hcall := hevents call reaches List.mem_cons_self
        refine hs.record json agrees_durable agrees_durable id hcall (fun doc' hdoc' => ?_) reaches
        exact ⟨hs.doc.1.record hcall hdoc', hs.doc.2.record hs.doc.1.typed hdoc'⟩
      | restart stamp reaches => exact hs.restart json agrees_durable stamp reaches
    obtain ⟨s', hs', hsound⟩ := hone
    obtain ⟨s'', hs'', hsound'⟩ :=
      ih (fun call reaches hmem => hevents call reaches (List.mem_cons_of_mem _ hmem)) hsound
    exact ⟨s'', (Store.happenAll_cons hs' events).trans hs'', hsound'⟩

theorem empty_covers : Covers [] .empty := ⟨empty_agrees, fun _ => le_refl _⟩

/-- **Evidence stays coherent at both granularities.**  Every agent's counters are the sums of its
rows', what its record tells of a last outcome is what that route's row tells, and no sink has
decided more deliveries than it accepted where accepts wrote them. -/
theorem evidence_coherent (json : JsonText) (float : FloatText) (events : List Happening)
    (hevents : ∀ call reaches, Happening.record call reaches ∈ events →
      ¬ call.operation.RefusesDuplicate) :
    ∃ s, Store.new.happenAll json float events = some s ∧ s.doc.Typed ∧
      (∀ agent wake, s.doc.agentWakes.lookup agent = some wake → wake.Coherent) ∧
      (FromAccepts [] events → ∀ route sink, s.doc.deliverySinks.lookup route = some sink →
        amount "woke" sink + amount "ignored" sink ≤ amount "accepted" sink) := by
  have hnew : Sound float Document.Agrees Document.Agrees .new := new_sound empty_agrees
  obtain ⟨s, hs, hsound⟩ := happenAll_sound json events hevents hnew
  refine ⟨s, hs, hsound.doc.1.typed, fun agent wake hwake => ?_,
    fun haccepts route sink hsink => ?_⟩
  · have hcoherent := hsound.doc.2 agent
    rw [Document.wake, hwake] at hcoherent
    exact hcoherent
  · have hcovered : Sound float (Covers []) (Covers []) .new := new_sound empty_covers
    obtain ⟨s', hs', hcovers⟩ := fromAccepts_covers json haccepts hevents hcovered
    rw [hs] at hs'
    cases hs'
    have hslack := hcovers.2 route
    have hnothing : owedAll route [] = 0 := rfl
    rw [hnothing, slack, Document.sink, hsink, Option.getD_some, slackOf] at hslack
    omega

/-- A route that takes every delivery, and wakes for none. -/
def quietRoute : Route Unit where
  name := "github"
  recipientKind := "repo"
  synthetic := false
  requiresSecret := false
  verify _ _ := pure ()
  normalize _ := pure none
  recheck _ _ := none
  stamps _ := Py.returns_pure fun _ h => by cases h

/-- A core of that route alone. -/
def quietCore : Core Unit where
  py := .ascii (fun _ => .error (.decode "Expecting value")) fun _ => none
  upper := id
  registry := ⟨OrderedDict.empty.set "github" quietRoute, RouteRegistry.empty.named_set quietRoute⟩
  config := ⟨{"github"}, .empty, .empty⟩

def earliestFlush : Flush := ⟨.earliest, .earliest, none⟩

/-- A delivery, and a wake between its two calls; then a failure that is not on disk when the
process restarts, and a refusal after. -/
def restartedBuilder : List Happening :=
  [.record (acceptedCall "github" earliestFlush) true,
    .record ⟨.wakeOk "builder" "d-1" "github" false, .earliest, .earliest⟩ true,
    .record (decidedCall "github" false earliestFlush) true,
    .record ⟨.wakeFailed "builder" "exit 1" "basecradle" false, .earliest, .earliest⟩ false,
    .restart .earliest true,
    .record ⟨.wakeRefused "builder" "breaker_open" "basecradle" false, .earliest, .earliest⟩ true]

theorem restartedBuilder_fromAccepts : FromAccepts [] restartedBuilder := by
  have hcalls : ((quietCore.accept "github" ⟨[], []⟩ ⟨earliestFlush, earliestFlush⟩).run
      (.enter ())).2.calls =
        [acceptedCall "github" earliestFlush, decidedCall "github" false earliestFlush] := rfl
  refine .accept quietCore "github" ⟨[], []⟩ ⟨earliestFlush, earliestFlush⟩ () ?_
  rw [hcalls]
  refine @FromAccepts.call [] _ _ _ _ true (.other rfl true ?_)
  exact @FromAccepts.call [] _ _ _ _ true
    (.other rfl false (.restart _ true (.other rfl true .done)))

theorem evidence_coherent_restarted : ∃ s sink,
    Store.new.happenAll .plain .unread restartedBuilder = some s ∧ s.doc.Typed ∧
      (∀ agent wake, s.doc.agentWakes.lookup agent = some wake → wake.Coherent) ∧
      s.doc.deliverySinks.lookup "github" = some sink ∧ amount "accepted" sink = 1 ∧
      amount "woke" sink + amount "ignored" sink ≤ 1 := by
  have hevents : ∀ call reaches, Happening.record call reaches ∈ restartedBuilder →
      ¬ call.operation.RefusesDuplicate := by
    intro call reaches hmem
    unfold restartedBuilder at hmem
    simp only [List.mem_cons, List.not_mem_nil, or_false, Happening.record.injEq, reduceCtorEq,
      false_or] at hmem
    rcases hmem with ⟨rfl, -⟩ | ⟨rfl, -⟩ | ⟨rfl, -⟩ | ⟨rfl, -⟩ | ⟨rfl, -⟩
    · exact id
    · exact id
    · exact id
    · exact id
    · exact fun h => absurd h (by decide : "breaker_open" ≠ Dedup.duplicateDelivery)
  obtain ⟨s, hs, htyped, hcoherent, hsinks⟩ :=
    evidence_coherent .plain .unread restartedBuilder hevents
  have hsink : (Store.new.happenAll .plain .unread restartedBuilder).map (fun s =>
      (s.doc.deliverySinks.lookup "github").map (amount "accepted")) = some (some 1) := by
    decide +kernel
  rw [hs] at hsink
  obtain ⟨sink, hlookup, haccepted⟩ := Option.map_eq_some_iff.mp (Option.some.inj hsink)
  have hbound := hsinks restartedBuilder_fromAccepts "github" sink hlookup
  exact ⟨s, sink, hs, htyped, hcoherent, hlookup, haccepted, haccepted ▸ hbound⟩

end BasecradleRouter.Pipeline
