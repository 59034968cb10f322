import NodeFlow.Proofs.Catalog.Payloads
import NodeFlow.Proofs.Catalog.Runs
import NodeFlow.Proofs.Catalog.WebClient

namespace NodeFlow

def Exchange.Good (exchange : Exchange) : Prop :=
  ∃ body, exchange.outcome = .ok ⟨200, some body⟩ ∧ Payload.Saved body

theorem Exchange.good_iff (exchange : Exchange) : exchange.Good ↔ ∃ types, exchange.types = .ok types := by
  simp only [Good, types_eq_ok_iff, Delivers, Payload.saved_iff_exists, ← Json.read?_eq_some_iff]
  constructor
  · intro good
    obtain ⟨body, came, payload, types, read, parsed⟩ := good
    exact ⟨types, payload, ⟨body, came, read⟩, parsed⟩
  · intro good
    obtain ⟨types, payload, ⟨body, came, read⟩, parsed⟩ := good
    exact ⟨body, came, payload, types, read, parsed⟩

theorem Exchange.not_good_of_isOk_eq_false {exchange : Exchange} (failed : exchange.outcome.isOk = false) :
    ¬ exchange.Good := by
  intro good
  obtain ⟨body, came, _⟩ := good
  rw [came] at failed
  cases failed

namespace Client.Documented

variable {client : Client} {url target : String}

theorem good_answered_iff (documented : client.Documented) (sent : client.target? url = some target)
    (timeout : Duration) (status : Nat) (body : String) :
    (client.get url timeout (.answered status body)).Good ↔ status = 200 ∧ Payload.Saved body := by
  constructor
  · intro good
    obtain ⟨other, came, saved⟩ := good
    have same : 200 = status := documented.reports _ _ _ _ _ came
    subst same
    rw [documented.answers sent] at came
    cases came
    exact ⟨rfl, saved⟩
  · intro good
    obtain ⟨rfl, saved⟩ := good
    exact ⟨body, documented.answers sent timeout body, saved⟩

theorem not_good_broken (documented : client.Documented) (url : String) (timeout : Duration) (status : Nat) :
    ¬ (client.get url timeout (.broken status)).Good := by
  intro good
  obtain ⟨body, came, _⟩ := good
  cases documented.breaks _ _ _ _ came

end Client.Documented

namespace Store

variable (store : Store) (now : Nat) (reply : Reply)

def Fresh : Prop :=
  ∃ installed, store.snapshot.installedAt = some installed ∧ now - installed < store.config.freshnessWindow.ticks

theorem isFresh_iff : store.isFresh now = true ↔ store.Fresh now := by
  unfold isFresh Snapshot.isFresh Fresh
  cases store.snapshot.installedAt <;> simp

theorem not_fresh_of_no_window {store : Store} (closed : store.config.freshnessWindow = 0) (now : Nat) :
    ¬ store.Fresh now := by
  intro fresh
  obtain ⟨installed, _, younger⟩ := fresh
  rw [closed] at younger
  exact Nat.not_lt_zero _ younger

theorem Fresh.isStamped {store : Store} {now : Nat} (fresh : store.Fresh now) : store.snapshot.isStamped = true := by
  obtain ⟨installed, stamped, _⟩ := fresh
  rw [Snapshot.isStamped, stamped]
  rfl

theorem fetch_ok_iff : (store.fetch now reply).ok = true ↔ (store.exchange reply).Good := by
  rw [Exchange.good_iff]
  cases came : (store.exchange reply).types <;> simp [fetch, came]

def requestsOf (store : Store) : Session.Step → List String
  | .refresh reply | .forceRefresh reply => (store.exchange reply).requests
  | _ => []

end Store

namespace Session

def Outcome.requests : Outcome → List String
  | .refreshed _ asked => asked.toList
  | _ => []

def Outcome.succeeded : Outcome → Bool
  | .refreshed ok _ => ok
  | .loaded _ => true
  | _ => false

def Step.isRefresh : Step → Bool
  | .refresh _ => true
  | _ => false

def Step.isForced : Step → Bool
  | .forceRefresh _ => true
  | _ => false

-- What a fetch comes to: one GET for the node types, of which no more is known than what the client makes of it. It
-- succeeds if its last response brings an object of objects.
structure Fetched (client : Client) (config : Store.Config) (reply : Reply) (outcome : Outcome) : Prop where
  once : ∃ ok, outcome = .refreshed ok (.made (client.get config.schemaUrl config.timeout reply).requests) ∧
    (ok = true ↔ (client.get config.schemaUrl config.timeout reply).Good)
  refused : client.target? config.schemaUrl = none → outcome = .refreshed false (.made [])
  sent : ∀ target, client.target? config.schemaUrl = some target →
    ∃ ok later, outcome = .refreshed ok (.made (target :: later))
  answered : ∀ target status body, client.target? config.schemaUrl = some target → reply = .answered status body →
    ∃ ok, outcome = .refreshed ok (.made [target]) ∧ (ok = true ↔ status = 200 ∧ Payload.Saved body)
  unanswered : ∀ target, client.target? config.schemaUrl = some target →
    (reply = .silence ∨ ∃ status, reply = .broken status) → outcome = .refreshed false (.made [target])

theorem fetched_of_documented {client : Client} (documented : client.Documented) {config : Store.Config}
    {reply : Reply} {ok : Bool} (good : ok = true ↔ (client.get config.schemaUrl config.timeout reply).Good) :
    Fetched client config reply
      (.refreshed ok (.made (client.get config.schemaUrl config.timeout reply).requests)) where
  once := ⟨ok, rfl, good⟩
  refused := by
    intro unsent
    obtain ⟨nothing, failed⟩ := documented.refuses unsent config.timeout reply
    rw [nothing, Bool.eq_false_iff.2 fun came => Exchange.not_good_of_isOk_eq_false failed (good.1 came)]
  sent := by
    intro target sent
    obtain ⟨later, same⟩ := List.head?_eq_some_iff.1 (documented.sends sent config.timeout reply)
    exact ⟨ok, later, by rw [same]⟩
  answered := by
    intro target status body sent same
    subst same
    exact ⟨ok, by rw [documented.stays sent _ _ rfl], good.trans (documented.good_answered_iff sent _ _ _)⟩
  unanswered := by
    intro target sent last
    have failed : ok = false := by
      rw [Bool.eq_false_iff, Ne, good]
      rcases last with rfl | ⟨status, rfl⟩
      · exact Exchange.not_good_of_isOk_eq_false (documented.fails _ _)
      · exact documented.not_good_broken _ _ _
    rcases last with rfl | ⟨status, rfl⟩ <;> rw [failed, documented.stays sent _ _ rfl]

section Steps

theorem forceRefresh_outcome_eq {session : Session} {now : Nat} {reply : Reply} {ok : Bool} {requests : List String}
    (came : (session.store.fetch now reply).ok = ok) (made : (session.store.exchange reply).requests = requests) :
    (session.apply now (.forceRefresh reply)).outcome = .refreshed ok (.made requests) := by
  rw [apply, afterRefresh, Store.fetch_asked, came, made]

variable (session : Session) (now : Nat)

theorem forceRefresh_outcome (reply : Reply) :
    ∃ ok, (session.apply now (.forceRefresh reply)).outcome =
      .refreshed ok (.made (session.store.exchange reply).requests) ∧
      (ok = true ↔ (session.store.exchange reply).Good) :=
  ⟨_, forceRefresh_outcome_eq rfl rfl, session.store.fetch_ok_iff now reply⟩

theorem refresh_outcome_iff (reply : Reply) :
    (session.apply now (.refresh reply)).outcome = .refreshed true .skipped ↔ session.store.Fresh now := by
  rw [← Store.isFresh_iff]
  cases fresh : session.store.isFresh now with
  | true => simp [apply, afterRefresh, Store.refresh, fresh]
  | false => simp [apply, afterRefresh, Store.refresh, fresh, Store.fetch_asked]

theorem refresh_eq_forceRefresh (reply : Reply) (stale : ¬ session.store.Fresh now) :
    session.apply now (.refresh reply) = session.apply now (.forceRefresh reply) := by
  rw [← Store.isFresh_iff] at stale
  simp [apply, Store.refresh, stale]

theorem apply_store (step : Step) :
    ∃ snapshot, (session.apply now step).session.store = { session.store with snapshot } := by
  rcases session.apply_cases now step with ⟨_, types, _, _, replaced, _⟩ | ⟨_, kept, _⟩
  · exact ⟨⟨types, some now⟩, replaced⟩
  · exact ⟨session.store.snapshot, kept⟩

theorem apply_config (step : Step) : (session.apply now step).session.store.config = session.store.config := by
  obtain ⟨snapshot, same⟩ := session.apply_store now step
  rw [same]

theorem requestsOf_apply (step : Step) :
    (session.apply now step).session.store.requestsOf = session.store.requestsOf := by
  obtain ⟨snapshot, same⟩ := session.apply_store now step
  rw [same]
  funext other
  cases other <;> rfl

theorem isStamped_apply (step : Step) (stamped : session.store.snapshot.isStamped = true) :
    (session.apply now step).session.store.snapshot.isStamped = true := by
  rcases session.apply_cases now step with ⟨_, _, _, _, replaced, _⟩ | ⟨_, kept, _⟩
  · rw [replaced]
    rfl
  · rw [kept]
    exact stamped

-- Nothing but a fresh snapshot makes a fetch succeed without a request.
theorem fresh_of_skipped (step : Step) (skipped : (session.apply now step).outcome = .refreshed true .skipped) :
    session.store.Fresh now := by
  cases step with
  | refresh reply => exact (session.refresh_outcome_iff now reply).1 skipped
  | forceRefresh reply =>
    obtain ⟨ok, made, _⟩ := session.forceRefresh_outcome now reply
    cases skipped.symm.trans made
  | load payload =>
    simp only [apply] at skipped
    split at skipped <;> cases skipped
  | hold => cases skipped
  | ask query => cases skipped
  | askHeld query =>
    simp only [apply, answerHeld] at skipped
    split at skipped <;> cases skipped
  | askEarlier others query =>
    simp only [apply, answerHeld] at skipped
    split at skipped <;> cases skipped
  | validate graph => cases skipped

theorem Outcome.installed_or_skipped {outcome : Outcome} (succeeded : outcome.succeeded = true) :
    outcome.installed = true ∨ outcome = .refreshed true .skipped := by
  cases outcome with
  | refreshed ok asked =>
    cases asked with
    | skipped => exact .inr (congrArg (Outcome.refreshed · .skipped) succeeded)
    | made requests => exact .inl (by rw [installed, show ok = true from succeeded]; rfl)
  | loaded types => exact .inl rfl
  | _ => cases succeeded

theorem isStamped_of_succeeded (step : Step) (succeeded : (session.apply now step).outcome.succeeded = true) :
    (session.apply now step).session.store.snapshot.isStamped = true := by
  rcases Outcome.installed_or_skipped succeeded with installed | skipped
  · rcases session.apply_cases now step with ⟨_, _, _, _, replaced, _⟩ | ⟨_, _, notInstalled⟩
    · rw [replaced]
      rfl
    · rw [installed] at notInstalled
      cases notInstalled
  · exact session.isStamped_apply now step (session.fresh_of_skipped now step skipped).isStamped

end Steps

section Runs

def requests : Session → List (Nat × Step) → List String
  | _, [] => []
  | session, (now, step) :: rest =>
    (session.apply now step).outcome.requests ++ requests (session.apply now step).session rest

-- Whenever the snapshot is stamped, it is still fresh.
def Lasting : Session → List (Nat × Step) → Prop
  | _, [] => True
  | session, (now, step) :: rest =>
    (session.store.snapshot.isStamped = true → session.store.Fresh now) ∧ Lasting (session.apply now step).session rest

theorem lasting_append (session : Session) (first second : List (Nat × Step)) :
    session.Lasting (first ++ second) ↔ session.Lasting first ∧ (session.run first).Lasting second := by
  induction first generalizing session with
  | nil => simp [Lasting, run]
  | cons timed rest ih => simp only [List.cons_append, Lasting, run, ih, and_assoc]

theorem isStamped_run (session : Session) (steps : List (Nat × Step))
    (stamped : session.store.snapshot.isStamped = true) : (session.run steps).store.snapshot.isStamped = true := by
  induction steps generalizing session with
  | nil => exact stamped
  | cons timed rest ih => exact ih _ (session.isStamped_apply timed.1 timed.2 stamped)

theorem run_store (session : Session) (steps : List (Nat × Step)) :
    ∃ snapshot, (session.run steps).store = { session.store with snapshot } := by
  induction steps generalizing session with
  | nil => exact ⟨session.store.snapshot, rfl⟩
  | cons timed rest ih =>
    obtain ⟨snapshot, same⟩ := ih (session.apply timed.1 timed.2).session
    obtain ⟨_, here⟩ := session.apply_store timed.1 timed.2
    exact ⟨snapshot, by rw [run, same, here]⟩

def Asks (session : Session) (now : Nat) (step : Step) : Bool :=
  step.isForced || (step.isRefresh && !session.store.isFresh now)

theorem requests_apply (session : Session) (now : Nat) (step : Step) : (session.apply now step).outcome.requests =
    if session.Asks now step then session.store.requestsOf step else [] := by
  have forced (reply : Reply) : (session.apply now (.forceRefresh reply)).outcome.requests =
      (session.store.exchange reply).requests :=
    congrArg Outcome.requests (forceRefresh_outcome_eq rfl rfl)
  cases step with
  | forceRefresh reply => exact forced reply
  | refresh reply =>
    by_cases fresh : session.store.Fresh now
    · have skipped := (session.refresh_outcome_iff now reply).2 fresh
      rw [← Store.isFresh_iff] at fresh
      simp [Asks, Step.isForced, fresh, skipped, Outcome.requests, Asked.toList]
    · rw [session.refresh_eq_forceRefresh now reply fresh, forced]
      rw [← Store.isFresh_iff] at fresh
      simp [Asks, Step.isRefresh, fresh, Store.requestsOf]
  | load payload =>
    simp only [apply]
    split <;> rfl
  | askHeld query =>
    simp only [apply, answerHeld]
    split <;> rfl
  | askEarlier others query =>
    simp only [apply, answerHeld]
    split <;> rfl
  | _ => rfl

-- The requests of a run are known from its steps if each session that it passes through decides alike about a step.
theorem requests_of_asks (asks : Step → Bool) (Holds : Session → List (Nat × Step) → Prop)
    (decides : ∀ session now step rest, Holds session ((now, step) :: rest) → session.Asks now step = asks step)
    (later : ∀ session now step rest, Holds session ((now, step) :: rest) → Holds (session.apply now step).session rest)
    {session : Session} {steps : List (Nat × Step)} (holds : Holds session steps) :
    session.requests steps = (steps.filter fun timed => asks timed.2).flatMap fun timed =>
      session.store.requestsOf timed.2 := by
  induction steps generalizing session with
  | nil => rfl
  | cons timed rest ih =>
    obtain ⟨now, step⟩ := timed
    rw [requests, requests_apply, decides session now step rest holds, ih (later session now step rest holds),
      session.requestsOf_apply now step]
    cases asked : asks step <;> simp [asked]

theorem requests_lasting {session : Session} {steps : List (Nat × Step)}
    (stamped : session.store.snapshot.isStamped = true) (lasting : session.Lasting steps) :
    session.requests steps = (steps.filter fun timed => timed.2.isForced).flatMap fun timed =>
      session.store.requestsOf timed.2 := by
  refine requests_of_asks Step.isForced
    (fun session steps => session.store.snapshot.isStamped = true ∧ session.Lasting steps) ?_ ?_ ⟨stamped, lasting⟩
  · intro session now step rest ⟨stamped, fresh, _⟩
    simp [Asks, (session.store.isFresh_iff now).2 (fresh stamped)]
  · intro session now step rest ⟨stamped, _, lasting⟩
    exact ⟨session.isStamped_apply now step stamped, lasting⟩

theorem requests_without_window {session : Session} {steps : List (Nat × Step)}
    (closed : session.store.config.freshnessWindow = 0) :
    session.requests steps = (steps.filter fun timed => timed.2.isForced || timed.2.isRefresh).flatMap fun timed =>
      session.store.requestsOf timed.2 := by
  refine requests_of_asks (fun step => step.isForced || step.isRefresh)
    (fun session _ => session.store.config.freshnessWindow = 0) ?_ ?_ closed
  · intro session now step rest closed
    have stale := (session.store.isFresh_iff now).not.2 (Store.not_fresh_of_no_window closed now)
    simp [Asks, stale]
  · intro session now step rest closed
    exact (congrArg _ (session.apply_config now step)).trans closed

theorem requestsOf_direct (store : Store) (documented : store.client.Documented) {target : String}
    (sent : store.client.target? store.config.schemaUrl = some target) {steps : List (Nat × Step)}
    (direct : ∀ timed ∈ steps, ∃ reply, reply.isLast = true ∧
      (timed.2 = .refresh reply ∨ timed.2 = .forceRefresh reply)) :
    (steps.flatMap fun timed => store.requestsOf timed.2) = steps.map fun _ => target := by
  rw [← List.flatMap_pure_eq_map]
  refine List.flatMap_congr fun timed member => ?_
  obtain ⟨reply, last, same | same⟩ := direct timed member <;>
    rw [same] <;> exact documented.stays sent store.config.timeout reply last

theorem refresh_lasting {session : Session} {before after : List (Nat × Step)} {now : Nat} {reply : Reply}
    (stamped : session.store.snapshot.isStamped = true)
    (lasting : session.Lasting (before ++ (now, .refresh reply) :: after)) :
    ((session.run before).apply now (.refresh reply)).outcome = .refreshed true .skipped := by
  have fresh := ((session.lasting_append before _).1 lasting).2.1 (session.isStamped_run before stamped)
  exact (refresh_outcome_iff _ now reply).2 fresh

end Runs

-- The requests are those of one GET for each of the steps; one request each, if no answer leads further.
structure Gets (client : Client) (config : Store.Config) (steps : List (Nat × Step)) (requests : List String) :
    Prop where
  each : requests = steps.flatMap fun timed => (Store.new config client).requestsOf timed.2
  direct : ∀ target, client.target? config.schemaUrl = some target →
    (∀ timed ∈ steps, ∃ reply, reply.isLast = true ∧ (timed.2 = .refresh reply ∨ timed.2 = .forceRefresh reply)) →
    requests = steps.map fun _ => target

theorem gets_of_documented {client : Client} (documented : client.Documented) {config : Store.Config}
    {steps : List (Nat × Step)} {requests : List String}
    (each : requests = steps.flatMap fun timed => (Store.new config client).requestsOf timed.2) :
    Gets client config steps requests :=
  ⟨each, fun _ sent direct => each.trans (requestsOf_direct (.new config client) documented sent direct)⟩

-- For every configuration, every run and every client that does what is documented of it.
theorem run_requests {client : Client} (documented : client.Documented) (config : Store.Config)
    (steps : List (Nat × Step)) :
    (∀ now reply,
      ((((new config client).run steps).apply now (.refresh reply)).outcome = .refreshed true .skipped ↔
        ((new config client).run steps).store.Fresh now) ∧
      (¬ ((new config client).run steps).store.Fresh now →
        ((new config client).run steps).apply now (.refresh reply) =
          ((new config client).run steps).apply now (.forceRefresh reply)) ∧
      Fetched client config reply (((new config client).run steps).apply now (.forceRefresh reply)).outcome) ∧
    -- Once anything succeeded in a run whose stamped snapshots are fresh, only forced fetches ask.
    ((new config client).Lasting steps → ∀ before now step after, steps = before ++ (now, step) :: after →
      (((new config client).run before).apply now step).outcome.succeeded = true →
      (∀ middle later reply rest, after = middle ++ (later, .refresh reply) :: rest →
        (((new config client).run (before ++ (now, step) :: middle)).apply later (.refresh reply)).outcome =
          .refreshed true .skipped) ∧
      Gets client config (after.filter fun timed => timed.2.isForced)
        (((new config client).run (before ++ [(now, step)])).requests after)) ∧
    (config.freshnessWindow = 0 → (∀ now, ¬ ((new config client).run steps).store.Fresh now) ∧
      Gets client config (steps.filter fun timed => timed.2.isForced || timed.2.isRefresh)
        ((new config client).requests steps)) := by
  have reached (steps : List (Nat × Step)) :
      ∃ snapshot, ((new config client).run steps).store = ⟨config, client, snapshot⟩ :=
    (new config client).run_store steps
  refine ⟨fun now reply => ⟨refresh_outcome_iff _ now reply, refresh_eq_forceRefresh _ now reply, ?_⟩, ?_, ?_⟩
  · obtain ⟨snapshot, same⟩ := reached steps
    obtain ⟨ok, outcome, good⟩ := ((new config client).run steps).forceRefresh_outcome now reply
    rw [same] at outcome good
    rw [outcome]
    exact fetched_of_documented documented good
  · intro lasting before now step after same succeeded
    subst same
    obtain ⟨_, _, lasting⟩ := ((new config client).lasting_append before _).1 lasting
    have stamped := isStamped_of_succeeded _ now step succeeded
    have passed : (new config client).run (before ++ [(now, step)]) =
        (((new config client).run before).apply now step).session := run_append _ _ _
    obtain ⟨snapshot, same⟩ := reached (before ++ [(now, step)])
    refine ⟨?_, gets_of_documented documented ?_⟩
    · intro middle later reply rest same
      subst same
      have skipped := refresh_lasting stamped lasting
      rwa [run_append]
    · rw [passed] at same ⊢
      rw [requests_lasting stamped lasting, same]
      rfl
  · intro closed
    obtain ⟨snapshot, same⟩ := reached steps
    have shut : ((new config client).run steps).store.config.freshnessWindow = 0 := by rw [same, closed]
    exact ⟨Store.not_fresh_of_no_window shut, gets_of_documented documented (requests_without_window closed)⟩

def supplied : List (Nat × Step) :=
  [(0, .load (.object [])), (1, .refresh .silence), (2, .forceRefresh .silence), (3, .refresh .silence)]

theorem lasting_supplied : (new .default .web).Lasting supplied := by
  simp only [Lasting, supplied, ← Store.isFresh_iff]
  decide +kernel

theorem sent_default : Client.web.target? Store.Config.default.schemaUrl = some "/object_info" := by decide +kernel

theorem supplied_requests : Client.web.Documented ∧ (new .default .web).Lasting supplied ∧
    ((new .default .web).run (supplied.take 1)).requests (supplied.drop 1) = ["/object_info"] ∧
    (((new .default .web).run (supplied.take 3)).apply 3 (.refresh .silence)).outcome = .refreshed true .skipped := by
  obtain ⟨_, lasting, _⟩ := run_requests Client.documented_web .default supplied
  obtain ⟨skipped, gets⟩ := lasting lasting_supplied [] 0 (.load (.object [])) (supplied.drop 1) rfl rfl
  have direct := gets.direct "/object_info" sent_default fun timed member => ⟨.silence, rfl, by
    simp [supplied, Step.isForced] at member
    simp [member]⟩
  exact ⟨Client.documented_web, lasting_supplied, direct, skipped _ 3 .silence [] rfl⟩

-- The letter makes the URL one that no request can be sent for.
def mistyped : Store.Config := ⟨"http://127.0.0.1:8188x", 5, 300⟩

def redirect : Reply := .moved 302 "/other" "" (.answered 200 "\x7b\x7d")

-- No request is sent for a mistyped URL, and two are if the host redirects, when the last response counts. An object of
-- objects may be unreadable.
theorem not_always_one_get :
    ((new mistyped .web).apply 0 (.forceRefresh (.answered 200 "\x7b\x7d"))).outcome = .refreshed false (.made []) ∧
    ((new .default .web).apply 0 (.forceRefresh redirect)).outcome = .refreshed true (.made ["/object_info", "/other"]) ∧
    (Json.Written Payload.overfullTree Payload.overfull.toList ∧ Payload.IsObjects Payload.overfullTree ∧
      ((new .default .web).apply 0 (.forceRefresh (.answered 200 Payload.overfull))).outcome =
        .refreshed false (.made ["/object_info"])) := by
  refine ⟨?_, ?_, Payload.written_overfull, Payload.isObjects_overfullTree, ?_⟩
  · exact forceRefresh_outcome_eq (by decide +kernel) (by decide +kernel)
  · exact forceRefresh_outcome_eq (by decide +kernel) (by decide +kernel)
  · exact forceRefresh_outcome_eq (by decide +kernel) (by decide +kernel)

end Session

end NodeFlow
