import NodeFlow.Proofs.Json.Meaning
import NodeFlow.Session

namespace NodeFlow

def Exchange.Delivers (exchange : Exchange) (payload : Json) : Prop :=
  ∃ body, exchange.outcome = .ok ⟨200, some body⟩ ∧ Json.StandsFor body payload

theorem Response.types_eq_ok_iff (response : Response) (types : Table NodeType) :
    response.types = .ok types ↔ ∃ body payload, response = ⟨200, some body⟩ ∧ Json.StandsFor body payload ∧
      Payload.parse payload = .ok types := by
  obtain ⟨status, body⟩ := response
  by_cases good : status = 200
  · subst good
    cases body with
    | none => simp [Response.types]
    | some body =>
      cases read : Json.read? body with
      | none => simp [Response.types, ← Json.read?_eq_some_iff, read]
      | some payload =>
        cases parsed : Payload.parse payload <;> simp [Response.types, ← Json.read?_eq_some_iff, read, parsed]
  · simp [Response.types, good]

theorem Exchange.types_eq_ok_iff (exchange : Exchange) (types : Table NodeType) :
    exchange.types = .ok types ↔ ∃ payload, exchange.Delivers payload ∧ Payload.parse payload = .ok types := by
  cases came : exchange.outcome with
  | error words => simp [Exchange.types, Delivers, came]
  | ok response =>
    simp only [Exchange.types, Delivers, came, response.types_eq_ok_iff, Except.ok.injEq]
    constructor
    · intro good
      obtain ⟨body, payload, same, stands, parsed⟩ := good
      exact ⟨payload, ⟨body, same, stands⟩, parsed⟩
    · intro good
      obtain ⟨payload, ⟨body, same, stands⟩, parsed⟩ := good
      exact ⟨body, payload, same, stands, parsed⟩

namespace Store

variable (store : Store) (now : Nat) (reply : Reply)

-- A GET ends with a new snapshot, or with everything as it was.
theorem fetch_cases :
    (∃ payload types, (store.exchange reply).Delivers payload ∧ Payload.parse payload = .ok types ∧
      (store.fetch now reply).store = store.install now types ∧ (store.fetch now reply).ok = true) ∨
    ((∀ payload types, (store.exchange reply).Delivers payload → Payload.parse payload ≠ .ok types) ∧
      (store.fetch now reply).store = store ∧ (store.fetch now reply).ok = false) := by
  cases came : (store.exchange reply).types with
  | ok types =>
    left
    obtain ⟨payload, delivers, parsed⟩ := ((store.exchange reply).types_eq_ok_iff types).1 came
    exact ⟨payload, types, delivers, parsed, by simp [fetch, came]⟩
  | error error =>
    right
    refine ⟨?_, by simp [fetch, came]⟩
    intro payload types delivers parsed
    have good := ((store.exchange reply).types_eq_ok_iff types).2 ⟨payload, delivers, parsed⟩
    rw [came] at good
    cases good

theorem fetch_asked : (store.fetch now reply).asked = .made (store.exchange reply).requests := by
  unfold fetch
  dsimp only
  split <;> rfl

end Store

namespace Session

-- The step puts the node types of the payload in place: a good one that was handed in, or one that came of a GET.
inductive Installs (session : Session) (now : Nat) : Step → Json → Prop
  | loaded {payload : Json} {types : Table NodeType} :
    Payload.parse payload = .ok types → Installs session now (.load payload) payload
  | refreshed {reply : Reply} {payload : Json} {types : Table NodeType} :
    session.store.isFresh now = false → (session.store.exchange reply).Delivers payload →
    Payload.parse payload = .ok types → Installs session now (.refresh reply) payload
  | forced {reply : Reply} {payload : Json} {types : Table NodeType} :
    (session.store.exchange reply).Delivers payload → Payload.parse payload = .ok types →
    Installs session now (.forceRefresh reply) payload

def Replaces (session : Session) (now : Nat) (step : Step) : Prop :=
  ∃ payload types, session.Installs now step payload ∧ Payload.parse payload = .ok types ∧
    (session.apply now step).session.store = session.store.install now types ∧
    (session.apply now step).outcome.installed = true

def Keeps (session : Session) (now : Nat) (step : Step) : Prop :=
  (∀ payload, ¬ session.Installs now step payload) ∧
    (session.apply now step).session.store = session.store ∧
    (session.apply now step).outcome.installed = false

theorem apply_cases (session : Session) (now : Nat) (step : Step) :
    session.Replaces now step ∨ session.Keeps now step := by
  cases step with
  | load payload =>
    cases parsed : Payload.parse payload with
    | ok types =>
      left
      refine ⟨payload, types, .loaded parsed, parsed, ?_⟩
      simp [apply, Store.load, parsed, Except.map, Outcome.installed]
    | error error =>
      right
      refine ⟨fun other installs => by cases installs; simp_all, ?_⟩
      simp [apply, Store.load, parsed, Except.map, Outcome.installed]
  | refresh reply =>
    cases fresh : session.store.isFresh now with
    | true =>
      right
      refine ⟨fun other installs => by cases installs; simp_all, ?_⟩
      simp [apply, afterRefresh, Store.refresh, fresh, Outcome.installed]
    | false =>
      rcases session.store.fetch_cases now reply with ⟨payload, types, delivers, parsed, came⟩ | ⟨none, came⟩
      · left
        refine ⟨payload, types, .refreshed fresh delivers parsed, parsed, ?_⟩
        simp [apply, afterRefresh, Store.refresh, fresh, Outcome.installed, came, Store.fetch_asked]
      · right
        refine ⟨fun other installs => ?_, ?_⟩
        · cases installs with
          | refreshed _ delivers parsed => exact none _ _ delivers parsed
        · simp [apply, afterRefresh, Store.refresh, fresh, Outcome.installed, came]
  | forceRefresh reply =>
    rcases session.store.fetch_cases now reply with ⟨payload, types, delivers, parsed, came⟩ | ⟨none, came⟩
    · left
      refine ⟨payload, types, .forced delivers parsed, parsed, ?_⟩
      simp [apply, afterRefresh, Outcome.installed, came, Store.fetch_asked]
    · right
      refine ⟨fun other installs => ?_, ?_⟩
      · cases installs with
        | forced delivers parsed => exact none _ _ delivers parsed
      · simp [apply, afterRefresh, Outcome.installed, came]
  | hold => exact .inr ⟨nofun, rfl, rfl⟩
  | ask query => exact .inr ⟨nofun, rfl, rfl⟩
  | askHeld query =>
    refine .inr ⟨nofun, rfl, ?_⟩
    simp only [apply, answerHeld]
    split <;> rfl
  | askEarlier others query =>
    refine .inr ⟨nofun, rfl, ?_⟩
    simp only [apply, answerHeld]
    split <;> rfl
  | validate graph => exact .inr ⟨nofun, rfl, rfl⟩

def run : Session → List (Nat × Step) → Session
  | session, [] => session
  | session, (now, step) :: rest => run (session.apply now step).session rest

theorem run_append (session : Session) (first second : List (Nat × Step)) :
    session.run (first ++ second) = (session.run first).run second := by
  induction first generalizing session with
  | nil => rfl
  | cons timed rest ih => exact ih _

section Snapshots

def Idle : Session → List (Nat × Step) → Prop
  | _, [] => True
  | session, (now, step) :: rest =>
    (∀ payload, ¬ session.Installs now step payload) ∧ Idle (session.apply now step).session rest

theorem idle_append (session : Session) (first second : List (Nat × Step)) :
    session.Idle (first ++ second) ↔ session.Idle first ∧ (session.run first).Idle second := by
  induction first generalizing session with
  | nil => simp [Idle, run]
  | cons timed rest ih => simp only [List.cons_append, Idle, run, ih, and_assoc]

-- Of the steps that install something the last one, with its payload.
def InstalledLast (session : Session) (steps : List (Nat × Step)) (payload : Json) (at_ : Nat) : Prop :=
  ∃ before step after, steps = before ++ (at_, step) :: after ∧ (session.run before).Installs at_ step payload ∧
    (session.run (before ++ [(at_, step)])).Idle after

-- The first step counts only as long as no later one installs anything.
theorem run_snapshot (session : Session) (steps : List (Nat × Step)) :
    (session.Idle steps ∧ (session.run steps).store.snapshot = session.store.snapshot) ∨
    ∃ payload types place, session.InstalledLast steps payload place ∧ Payload.parse payload = .ok types ∧
      (session.run steps).store.snapshot = ⟨types, some place⟩ := by
  induction steps generalizing session with
  | nil => exact .inl ⟨trivial, rfl⟩
  | cons timed rest ih =>
    obtain ⟨now, step⟩ := timed
    rcases ih (session.apply now step).session with ⟨idle, same⟩ | ⟨payload, types, place, last, parsed, same⟩
    · rcases session.apply_cases now step with ⟨payload, types, installs, parsed, replaced, _⟩ | ⟨none, kept, _⟩
      · right
        refine ⟨payload, types, now, ⟨[], step, rest, rfl, installs, idle⟩, parsed, ?_⟩
        simp only [run, same, replaced, Store.install]
      · left
        refine ⟨⟨none, idle⟩, ?_⟩
        simp only [run, same, kept]
    · right
      obtain ⟨before, other, after, rfl, installs, idle⟩ := last
      exact ⟨payload, types, place, ⟨(now, step) :: before, other, after, rfl, installs, idle⟩, parsed, same⟩

theorem not_idle_of_installedLast {session : Session} {steps : List (Nat × Step)} {payload : Json} {place : Nat}
    (last : session.InstalledLast steps payload place) : ¬ session.Idle steps := by
  obtain ⟨before, step, after, rfl, installs, _⟩ := last
  intro idle
  exact ((session.idle_append before _).1 idle).2.1 payload installs

end Snapshots

section Handing

def Step.isHold : Step → Bool
  | .hold => true
  | _ => false

theorem held_apply (session : Session) (now : Nat) (step : Step) :
    (session.apply now step).session.held =
      if step.isHold then session.store.snapshot :: session.held else session.held := by
  cases step with
  | load payload =>
    simp only [apply]
    split <;> rfl
  | refresh reply => simp [apply, afterRefresh, Step.isHold]
  | forceRefresh reply => simp [apply, afterRefresh, Step.isHold]
  | hold => simp [apply, Step.isHold]
  | ask query => simp [apply, Step.isHold]
  | askHeld query => simp [apply, Step.isHold]
  | askEarlier others query => simp [apply, Step.isHold]
  | validate graph => simp [apply, Step.isHold]

theorem held_run (session : Session) (steps : List (Nat × Step)) :
    ∃ later, (session.run steps).held = later ++ session.held ∧
      later.length = steps.countP fun timed => timed.2.isHold := by
  induction steps generalizing session with
  | nil => exact ⟨[], rfl, rfl⟩
  | cons timed rest ih =>
    obtain ⟨now, step⟩ := timed
    obtain ⟨later, same, length⟩ := ih (session.apply now step).session
    rw [held_apply] at same
    rw [List.countP_cons]
    split at same
    · rename_i holds
      refine ⟨later ++ [session.store.snapshot], by simpa [run] using same, ?_⟩
      simp [length, holds]
    · rename_i passes
      exact ⟨later, same, by simp [length, passes]⟩

theorem answerHeld_run (session : Session) (now : Nat) (after : List (Nat × Step)) (query : Snapshot.Query) :
    (session.run ((now, .hold) :: after)).answerHeld (after.countP fun timed => timed.2.isHold) query =
      .answered (session.store.snapshot.answer query) := by
  obtain ⟨later, same, length⟩ := (session.apply now .hold).session.held_run after
  have place : (session.run ((now, .hold) :: after)).held[after.countP fun timed => timed.2.isHold]? =
      some session.store.snapshot := by
    simp only [run, same, ← length]
    simp [held_apply, Step.isHold]
  simp [answerHeld, place]

end Handing

-- For every configuration, client and run, whatever is answered and the clock says.
theorem run_new (config : Store.Config) (client : Client) (steps : List (Nat × Step)) :
    -- The node types are those of the payload that was installed last, or none.
    (((new config client).Idle steps ∧ ((new config client).run steps).store.snapshot = .empty) ∨
      ∃ payload types place, (new config client).InstalledLast steps payload place ∧
        Payload.parse payload = .ok types ∧ ((new config client).run steps).store.snapshot = ⟨types, some place⟩) ∧
    (((new config client).run steps).store.snapshot.isStamped = true ↔ ¬ (new config client).Idle steps) ∧
    -- A further step replaces the snapshot, or fails or is skipped and changes nothing of the store.
    (∀ now step,
      ((new config client).run steps).Replaces now step ∨ ((new config client).run steps).Keeps now step) ∧
    -- What was handed out on the way answers as it did.
    ∀ before now after, steps = before ++ (now, .hold) :: after → ∀ asked later query, ∃ answer,
      (((new config client).run before).apply asked (.ask query)).outcome = .answered answer ∧
      (((new config client).run steps).apply later
        (.askEarlier (after.countP fun timed => timed.2.isHold) query)).outcome = .answered answer := by
  have newest := (new config client).run_snapshot steps
  refine ⟨newest, ?_, fun now step => apply_cases _ now step, ?_⟩
  · rcases newest with ⟨idle, same⟩ | ⟨payload, types, place, last, _, same⟩
    · have bare : (new config client).store.snapshot.isStamped = false := rfl
      simp [same, bare, idle]
    · rw [same]
      simp [not_idle_of_installedLast last, Snapshot.isStamped]
  · intro before now after split asked later query
    refine ⟨_, rfl, ?_⟩
    rw [split, run_append]
    exact ((new config client).run before).answerHeld_run now after query

end Session

end NodeFlow
