import Mathlib.Data.List.Basic
import Mathlib.Data.List.Nodup
import Foco.RustText
import Foco.Runs

/-!
`app/runtime/agent_scheduler.rs`, `app/runtime/subscriptions.rs` and `store/workspace.rs`: the
stored parts of a visible assistant message. Projections of finished child tasks read the list
and write it back with a lifecycle part, and the run of the message writes its own whole list.
-/
namespace Foco.LifecycleParts
open Foco.RustText Foco.Runs

variable {Own : Type}

/-! ## Parts and events -/

/-- `StoredChatMessagePart`: a part of the run, or the lifecycle of a child by its event id. -/
inductive MessagePart (Own : Type) where
  | own (part : Own)
  | lifecycle (eventId : Text)
deriving DecidableEq

/-- A run event as far as it makes parts. A reset carries the parts to go on with. -/
inductive RunEvent (Own : Type) where
  | part (part : Own)
  | attemptStart
  | reset (rest : List Own)
  | lifecycle (eventId : Text)

def MessagePart.eventId? : MessagePart Own → Option Text
  | .own _ => none
  | .lifecycle eventId => some eventId

def RunEvent.eventId? : RunEvent Own → Option Text
  | .lifecycle eventId => some eventId
  | _ => none

/-- The lifecycle event ids of a list of parts. -/
def lifecycles (parts : List (MessagePart Own)) : List Text := parts.filterMap MessagePart.eventId?

/-- The lifecycle events among the run events. -/
def lifecycleEvents (events : List (RunEvent Own)) : List Text := events.filterMap RunEvent.eventId?

structure Finalizing (Own : Type) where
  parts : List (MessagePart Own) := []
  /-- The parts at the last start of a stream attempt. -/
  snapshot : Option (List (MessagePart Own)) := none

/-- The loop body of `finalized_assistant_message_parts`. -/
def Finalizing.event (state : Finalizing Own) : RunEvent Own → Finalizing Own
  | .part part => { state with parts := state.parts ++ [.own part] }
  | .lifecycle eventId => { state with parts := state.parts ++ [.lifecycle eventId] }
  | .attemptStart => { state with snapshot := some state.parts }
  | .reset rest => { state with parts := state.snapshot.getD (rest.map .own) }

def finalizedParts (events : List (RunEvent Own)) : List (MessagePart Own) :=
  (events.foldl Finalizing.event {}).parts

theorem lifecycles_own (rest : List Own) : lifecycles (rest.map MessagePart.own) = [] := by
  simp [lifecycles, MessagePart.eventId?]

theorem lifecycles_append (parts more : List (MessagePart Own)) :
    lifecycles (parts ++ more) = lifecycles parts ++ lifecycles more :=
  List.filterMap_append

theorem lifecycleEvents_append (events more : List (RunEvent Own)) :
    lifecycleEvents (events ++ more) = lifecycleEvents events ++ lifecycleEvents more :=
  List.filterMap_append

/-- What has been put together so far shows only lifecycle events that came, each once. -/
def Finalizing.Within (state : Finalizing Own) (seen : List Text) : Prop :=
  (lifecycles state.parts).Sublist seen ∧
    ∀ parts, state.snapshot = some parts → (lifecycles parts).Sublist seen

theorem Finalizing.Within.event {state : Finalizing Own} {seen : List Text}
    (within : state.Within seen) (event : RunEvent Own) :
    (state.event event).Within (seen ++ lifecycleEvents [event]) := by
  have grown : ∀ {ids : List Text}, ids.Sublist seen →
      ids.Sublist (seen ++ lifecycleEvents [event]) :=
    fun sub => sub.trans (List.sublist_append_left _ _)
  obtain ⟨parts, snapshot⟩ := within
  refine ⟨?_, ?_⟩
  · cases event with
    | part part =>
      rw [Finalizing.event, lifecycles_append]
      exact parts.append (List.nil_sublist _)
    | lifecycle eventId =>
      rw [Finalizing.event, lifecycles_append]
      exact parts.append (List.Sublist.refl _)
    | attemptStart => exact grown parts
    | reset rest =>
      cases saved : state.snapshot with
      | none =>
        rw [Finalizing.event, saved, Option.getD_none, lifecycles_own]
        exact List.nil_sublist _
      | some earlier =>
        rw [Finalizing.event, saved, Option.getD_some]
        exact grown (snapshot earlier saved)
  · intro earlier saved
    cases event with
    | attemptStart =>
      cases saved
      exact grown parts
    | _ => exact grown (snapshot earlier saved)

theorem Finalizing.Within.events {state : Finalizing Own} {seen : List Text}
    (within : state.Within seen) (events : List (RunEvent Own)) :
    (events.foldl Finalizing.event state).Within (seen ++ lifecycleEvents events) := by
  induction events generalizing state seen with
  | nil => simpa [lifecycleEvents] using within
  | cons event events ih =>
    have tail := ih (within.event event)
    rwa [List.append_assoc, ← lifecycleEvents_append] at tail

/-- The finalized parts show lifecycle events of the run in their order. -/
theorem lifecycles_finalizedParts (events : List (RunEvent Own)) :
    (lifecycles (finalizedParts events)).Sublist (lifecycleEvents events) := by
  have start : (Finalizing.Within ({} : Finalizing Own) []) := ⟨List.Sublist.refl _, nofun⟩
  exact (start.events events).1

/-! ## The writers -/

/-- Where a projection of a finished child stands. -/
inductive ProjectionPhase (Own : Type) where
  | begun
  /-- The durable event is there. -/
  | appended
  /-- The message was read, without the part of the child. -/
  | read (parts : List (MessagePart Own))
  /-- The projection has returned `Ok`, for a message that existed or not. -/
  | returned (existed : Bool)
  | failed

structure Projection (Own : Type) where
  eventId : Text
  phase : ProjectionPhase Own := .begun

/-- The message and the run events in the database, the run and the projections; `written` and
`persisted` remember what was once stored. -/
structure Store (Own : Type) where
  /-- The stored parts, if the message exists. -/
  parts : Option (List (MessagePart Own)) := none
  runEvents : List (RunEvent Own) := []
  /-- The events the run has captured itself. -/
  captured : List (RunEvent Own) := []
  /-- The events that a draft has been read from. -/
  draft : Option (List (RunEvent Own)) := none
  projections : List (Projection Own) := []
  /-- The lifecycle parts that have been stored at any time. -/
  written : List Text := []
  /-- The parts that the run has stored last. -/
  persisted : List (MessagePart Own) := []

inductive Action (Own : Type) where
  /-- The run emits an event of its own. -/
  | emit (event : RunEvent Own)
  /-- `persist_assistant_draft` reads the events of the run, and writes what they come to. -/
  | readRunEvents
  | persistDraft
  /-- The final write of the run, from the events it has captured. -/
  | persistFinal
  /-- `persist_blocked_tool_call_observations`, which writes no metadata. -/
  | persistBlocked
  /-- A scan comes to a finished child. -/
  | project (eventId : Text)
  | appendEvent (projection : Nat)
  | readMessage (projection : Nat)
  | writeParts (projection : Nat)

namespace Store

/-- The stored list; an absent message has none. -/
def list (store : Store Own) : List (MessagePart Own) := store.parts.getD []

/-- `upsert_message_content` with the metadata of a list of parts. -/
def upsertMessageContent (store : Store Own) (parts : List (MessagePart Own)) : Store Own :=
  { store with
    parts := some parts
    written := store.written ++ lifecycles parts
    persisted := parts }

/-- `append_run_event_if_absent`. -/
def appendRunEventIfAbsent (store : Store Own) (eventId : Text) : Store Own :=
  if eventId ∈ lifecycleEvents store.runEvents then store
  else { store with runEvents := store.runEvents ++ [.lifecycle eventId] }

/-- `mutate_message_metadata` with `SetParts`, by a projection. -/
def setParts (store : Store Own) (parts : List (MessagePart Own)) : Store Own :=
  { store with
    parts := some parts
    written := store.written ++ lifecycles parts }

def setPhase (store : Store Own) (index : Nat) (eventId : Text) (phase : ProjectionPhase Own) :
    Store Own :=
  { store with projections := store.projections.set index { eventId, phase } }

end Store

def step (store : Store Own) : Action Own → Option (Store Own)
  | .emit event =>
    if event.eventId?.isNone then
      some { store with
        runEvents := store.runEvents ++ [event]
        captured := store.captured ++ [event] }
    else none
  | .readRunEvents => some { store with draft := some store.runEvents }
  | .persistDraft => store.draft.map fun events =>
      { store.upsertMessageContent (finalizedParts events) with draft := none }
  | .persistFinal => some (store.upsertMessageContent (finalizedParts store.captured))
  | .persistBlocked => some (store.upsertMessageContent [])
  | .project eventId => some { store with projections := store.projections ++ [{ eventId }] }
  | .appendEvent index => (store.projections[index]?).bind fun projection =>
      match projection.phase with
      | .begun => some ((store.appendRunEventIfAbsent projection.eventId).setPhase index
          projection.eventId .appended)
      | _ => none
  | .readMessage index => (store.projections[index]?).bind fun projection =>
      match projection.phase with
      | .appended => some (store.setPhase index projection.eventId
          (match store.parts with
            | none => .returned false
            | some parts =>
              if projection.eventId ∈ lifecycles parts then .returned true else .read parts))
      | _ => none
  | .writeParts index => (store.projections[index]?).bind fun projection =>
      match projection.phase with
      | .read parts =>
        if store.parts.isSome then
          some ((store.setParts (parts ++ [.lifecycle projection.eventId])).setPhase index
            projection.eventId (.returned true))
        else some (store.setPhase index projection.eventId .failed)
      | _ => none

def machine (Own : Type) : Machine (Store Own) (Action Own) where
  start := {}
  step := step

/-! ## What the stored list keeps -/

structure Lossless (store : Store Own) : Prop where
  /-- A lifecycle part once written is there. -/
  kept : ∀ eventId ∈ store.written, eventId ∈ lifecycles store.list
  distinct : (lifecycles store.list).Nodup
  /-- The projections leave what the run has persisted. -/
  persisted : ∀ part ∈ store.persisted, part ∈ store.list
  returned : ∀ projection ∈ store.projections, projection.phase = .returned true →
    projection.eventId ∈ lifecycles store.list ∧
      (lifecycleEvents store.runEvents).count projection.eventId = 1

/-- The list shows every lifecycle part that is stored. -/
def Store.covers (store : Store Own) (parts : List (MessagePart Own)) : Bool :=
  (lifecycles store.list).all fun eventId => eventId ∈ lifecycles parts

/-- A projection writes while the list is still the one it has read, and the run writes when its
own list shows every lifecycle part that is stored. -/
def inTurn [DecidableEq Own] (store : Store Own) : Action Own → Bool
  | .persistDraft => store.draft.all fun events => store.covers (finalizedParts events)
  | .persistFinal => store.covers (finalizedParts store.captured)
  | .persistBlocked => store.covers []
  | .writeParts index => store.projections[index]?.all fun projection =>
      match projection.phase with
      | .read parts => store.parts = some parts
      | _ => true
  | _ => true

/-! ## The invariant -/

structure Sound (store : Store Own) : Prop where
  kept : ∀ eventId ∈ store.written, eventId ∈ lifecycles store.list
  history : ∀ eventId ∈ lifecycles store.list, eventId ∈ store.written
  distinct : (lifecycles store.list).Nodup
  persisted : ∀ part ∈ store.persisted, part ∈ store.list
  events : (lifecycleEvents store.runEvents).Nodup
  captured : lifecycleEvents store.captured = []
  draft : ∀ events, store.draft = some events → (lifecycleEvents events).Nodup
  appended : ∀ projection ∈ store.projections, projection.phase ≠ .begun →
    projection.eventId ∈ lifecycleEvents store.runEvents
  read : ∀ projection ∈ store.projections, ∀ parts, projection.phase = .read parts →
    projection.eventId ∉ lifecycles parts
  returned : ∀ projection ∈ store.projections, projection.phase = .returned true →
    projection.eventId ∈ store.written

section Steps

variable {store store' : Store Own}

theorem Sound.lossless (sound : Sound store) : Lossless store where
  kept := sound.kept
  distinct := sound.distinct
  persisted := sound.persisted
  returned := fun projection mem done =>
    ⟨sound.kept _ (sound.returned projection mem done),
      List.count_eq_one_of_mem sound.events
        (sound.appended projection mem (by rw [done]; nofun))⟩

/-- The run writes a list that shows what is stored. -/
theorem Sound.upsert (sound : Sound store) {parts : List (MessagePart Own)}
    (covers : store.covers parts = true) (distinct : (lifecycles parts).Nodup) :
    Sound (store.upsertMessageContent parts) where
  kept := by
    intro eventId mem
    obtain earlier | now := List.mem_append.mp mem
    · exact of_decide_eq_true (List.all_eq_true.mp covers eventId (sound.kept eventId earlier))
    · exact now
  history := fun _ mem => List.mem_append_right _ mem
  distinct := distinct
  persisted := fun _ mem => mem
  events := sound.events
  captured := sound.captured
  draft := sound.draft
  appended := sound.appended
  read := sound.read
  returned := fun projection mem done =>
    List.mem_append_left _ (sound.returned projection mem done)

/-- A projection moves on. -/
theorem Sound.setPhase (sound : Sound store) {index : Nat} {eventId : Text}
    {phase : ProjectionPhase Own}
    (appended : phase ≠ .begun → eventId ∈ lifecycleEvents store.runEvents)
    (read : ∀ parts, phase = .read parts → eventId ∉ lifecycles parts)
    (returned : phase = .returned true → eventId ∈ store.written) :
    Sound (store.setPhase index eventId phase) := by
  refine { sound with appended := ?_, read := ?_, returned := ?_ }
  · intro projection mem moved
    obtain old | rfl := List.mem_or_eq_of_mem_set mem
    · exact sound.appended projection old moved
    · exact appended moved
  · intro projection mem parts stands
    obtain old | rfl := List.mem_or_eq_of_mem_set mem
    · exact sound.read projection old parts stands
    · exact read parts stands
  · intro projection mem done
    obtain old | rfl := List.mem_or_eq_of_mem_set mem
    · exact sound.returned projection old done
    · exact returned done

theorem mem_appendRunEventIfAbsent (store : Store Own) (eventId : Text) :
    eventId ∈ lifecycleEvents (store.appendRunEventIfAbsent eventId).runEvents := by
  unfold Store.appendRunEventIfAbsent
  split
  · next there => exact there
  · rw [lifecycleEvents_append]
    exact List.mem_append_right _ List.mem_cons_self

theorem Sound.appendRunEvent (sound : Sound store) (eventId : Text) :
    Sound (store.appendRunEventIfAbsent eventId) := by
  unfold Store.appendRunEventIfAbsent
  split
  · exact sound
  · next absent =>
    refine { sound with events := ?_, appended := ?_ }
    · rw [lifecycleEvents_append]
      refine List.nodup_append.mpr ⟨sound.events, List.nodup_singleton eventId, ?_⟩
      rintro other mem _ (_ | ⟨_, ⟨⟩⟩) rfl
      exact absent mem
    · intro projection mem moved
      rw [lifecycleEvents_append]
      exact List.mem_append_left _ (sound.appended projection mem moved)

/-- A projection adds its part to the list it has read, which is still the stored one. -/
theorem Sound.setParts (sound : Sound store) {parts : List (MessagePart Own)} {eventId : Text}
    (stored : store.parts = some parts) (absent : eventId ∉ lifecycles parts) :
    Sound (store.setParts (parts ++ [.lifecycle eventId])) := by
  have list : store.list = parts := by rw [Store.list, stored, Option.getD_some]
  have grown : lifecycles (parts ++ [.lifecycle eventId]) = lifecycles store.list ++ [eventId] := by
    rw [lifecycles_append, list]
    rfl
  refine { sound with kept := ?_, history := ?_, distinct := ?_, persisted := ?_, returned := ?_ }
  · intro other mem
    change other ∈ lifecycles (parts ++ [.lifecycle eventId])
    obtain earlier | now := List.mem_append.mp mem
    · rw [grown]
      exact List.mem_append_left _ (sound.kept other earlier)
    · exact now
  · exact fun _ mem => List.mem_append_right _ mem
  · change (lifecycles (parts ++ [.lifecycle eventId])).Nodup
    rw [grown]
    refine List.nodup_append.mpr ⟨sound.distinct, List.nodup_singleton eventId, ?_⟩
    rintro other mem _ (_ | ⟨_, ⟨⟩⟩) rfl
    rw [list] at mem
    exact absent mem
  · intro part mem
    have before := sound.persisted part mem
    rw [list] at before
    exact List.mem_append_left _ before
  · exact fun projection mem done => List.mem_append_left _ (sound.returned projection mem done)

end Steps

theorem Sound.step [DecidableEq Own] {store store' : Store Own} {action : Action Own}
    (sound : Sound store) (turn : inTurn store action = true)
    (stepped : step store action = some store') : Sound store' := by
  cases action with
  | emit event =>
    obtain ⟨own, eq⟩ := Option.ite_none_right_eq_some.mp stepped
    cases eq
    have none : lifecycleEvents [event] = [] := by
      rw [Option.isNone_iff_eq_none] at own
      simp [lifecycleEvents, own]
    refine { sound with events := ?_, captured := ?_, appended := ?_ }
    · rw [lifecycleEvents_append, none, List.append_nil]
      exact sound.events
    · rw [lifecycleEvents_append, none, List.append_nil]
      exact sound.captured
    · rw [lifecycleEvents_append, none, List.append_nil]
      exact sound.appended
  | readRunEvents =>
    cases stepped
    refine { sound with draft := ?_ }
    rintro _ ⟨⟩
    exact sound.events
  | persistDraft =>
    obtain ⟨events, taken, rfl⟩ := Option.map_eq_some_iff.mp stepped
    rw [inTurn, taken, Option.all_some] at turn
    have distinct := (lifecycles_finalizedParts events).nodup (sound.draft events taken)
    exact { sound.upsert turn distinct with draft := nofun }
  | persistFinal =>
    cases stepped
    have distinct := (lifecycles_finalizedParts store.captured).nodup
      (sound.captured ▸ List.nodup_nil)
    exact sound.upsert turn distinct
  | persistBlocked =>
    cases stepped
    exact sound.upsert turn List.nodup_nil
  | project eventId =>
    cases stepped
    refine { sound with appended := ?_, read := ?_, returned := ?_ }
    · intro projection mem moved
      obtain old | new := List.mem_append.mp mem
      · exact sound.appended projection old moved
      · cases List.mem_singleton.mp new
        exact absurd rfl moved
    · intro projection mem parts stands
      obtain old | new := List.mem_append.mp mem
      · exact sound.read projection old parts stands
      · cases List.mem_singleton.mp new
        cases stands
    · intro projection mem done
      obtain old | new := List.mem_append.mp mem
      · exact sound.returned projection old done
      · cases List.mem_singleton.mp new
        cases done
  | appendEvent index =>
    obtain ⟨projection, known, stepped⟩ := Option.bind_eq_some_iff.mp stepped
    split at stepped
    · cases stepped
      refine (sound.appendRunEvent projection.eventId).setPhase (fun _ => ?_) nofun nofun
      exact mem_appendRunEventIfAbsent store projection.eventId
    · cases stepped
  | readMessage index =>
    obtain ⟨projection, known, stepped⟩ := Option.bind_eq_some_iff.mp stepped
    split at stepped
    · next stands =>
      cases stepped
      have there := sound.appended projection (List.mem_of_getElem? known) (by rw [stands]; nofun)
      refine sound.setPhase (fun _ => there) ?_ ?_
      · intro parts
        split
        · nofun
        · split
          · nofun
          · next absent =>
            rintro ⟨⟩
            exact absent
      · split
        · nofun
        · next parts stored =>
          split
          · next shown =>
            intro _
            refine sound.history projection.eventId ?_
            rwa [Store.list, stored, Option.getD_some]
          · nofun
    · cases stepped
  | writeParts index =>
    obtain ⟨projection, known, stepped⟩ := Option.bind_eq_some_iff.mp stepped
    split at stepped
    · next parts stands =>
      have mem := List.mem_of_getElem? known
      have there := sound.appended projection mem (by rw [stands]; nofun)
      rw [inTurn, known, Option.all_some, stands] at turn
      have stored := of_decide_eq_true turn
      split at stepped
      · cases stepped
        refine (sound.setParts stored (sound.read projection mem parts stands)).setPhase
          (fun _ => there) nofun fun _ => ?_
        refine List.mem_append_right _ ?_
        rw [lifecycles_append]
        exact List.mem_append_right _ List.mem_cons_self
      · cases stepped
        exact sound.setPhase (fun _ => there) nofun nofun
    · cases stepped

theorem sound_start (Own : Type) : Sound (machine Own).start where
  kept := by simp [machine]
  history := by simp [machine, Store.list, lifecycles]
  distinct := by simp [machine, Store.list, lifecycles]
  persisted := by simp [machine]
  events := by simp [machine, lifecycleEvents]
  captured := rfl
  draft := by simp [machine]
  appended := by simp [machine]
  read := by simp [machine]
  returned := by simp [machine]

/-- In a run in which every writer writes in turn the stored list loses nothing. -/
theorem lossless_of_inTurn [DecidableEq Own] (store : Store Own)
    (reached : (machine Own).ReachableWhile
      (fun store action => inTurn store action = true) store) : Lossless store :=
  Sound.lossless (reached.invariant (sound_start Own) fun _ _ _ sound turn stepped =>
    sound.step turn stepped)

/-- Two children and a run, one after the other. -/
theorem lossless_twoChildren :
    ∃ store : Store Nat,
      store.list = [.own 0, .lifecycle ['a'], .lifecycle ['b']] ∧ Lossless store := by
  obtain ⟨store, run, list⟩ : ∃ store : Store Nat,
      (machine Nat).runWhile inTurn {}
        [.emit (.part 0), .readRunEvents, .persistDraft,
          .project ['a'], .appendEvent 0, .readMessage 0, .writeParts 0,
          .project ['b'], .appendEvent 1, .readMessage 1, .writeParts 1] = some store ∧
        store.list = [.own 0, .lifecycle ['a'], .lifecycle ['b']] := ⟨_, rfl, rfl⟩
  exact ⟨store, list, lossless_of_inTurn store (Machine.reachableWhile_of_runWhile .start run)⟩

/-- Two projections that read the same list: the second write drops the part of the first. -/
theorem not_lossless :
    ¬ ∀ store : Store Nat, (machine Nat).Reachable store → Lossless store := by
  intro lossless
  obtain ⟨store, run, list, written⟩ : ∃ store : Store Nat,
      (machine Nat).run {}
        [.persistBlocked, .project ['a'], .project ['b'], .appendEvent 0, .appendEvent 1,
          .readMessage 0, .readMessage 1, .writeParts 0, .writeParts 1] = some store ∧
        lifecycles store.list = [['b']] ∧ store.written = [['a'], ['b']] := ⟨_, rfl, rfl, rfl⟩
  have kept := (lossless store (Machine.reachable_of_run .start run)).kept ['a']
  rw [written, list] at kept
  exact absurd (kept List.mem_cons_self) (by decide)

end Foco.LifecycleParts
