import Patchbay.Proofs.Session.Calls
import Patchbay.Proofs.Tables
import Patchbay.Session.Registry

/-!
# Sessions of a registry

What may happen to the sessions of a registry, apart from being bound to a device. Every session
stays under its number, with its configuration and its device, and once it has ended it does not
come back; a new session gets a number that no other ever had. Handles, files and events are
left out.
-/
namespace Patchbay

/-- The same session at a later time, bound to the same device. -/
structure Session.Continues (s s' : Session) : Prop extends s.Keeps s' where
  ended : s.isTerminal → s'.isTerminal

/-- What happens in a registry, apart from the handling of routes. -/
inductive RegistryStep where
  | create (config : StreamConfig)
  | call (id : Nat) (c : SessionCall)
  /-- Others that map the ring of a session leave it like this. -/
  | share (id : Nat) (ring : Ring)
  | remove (id : Nat)
  | reap

namespace Registry

/-- A call on a session of the registry. -/
def perform (r : Registry) (id : Nat) : SessionCall → Registry
  | .resolve => (r.apply id Session.resolve).2
  | .start => (r.apply id Session.start).2
  | .pause discard => (r.apply id (·.pause discard)).2
  | .resume => (r.apply id Session.resume).2
  | .stop => (r.apply id Session.stop).2
  | .flush => (r.apply id Session.flush).2
  | .bind d => (r.apply id (·.bind d)).2
  | .release => (r.release id).2
  | .invalidate reason => r.invalidate id reason
  | .write frame t => (r.apply id (·.write frame t)).2
  | .read want => (r.apply id (·.read want)).2
  | .info => (r.apply id fun s => (s.handleInfo, s)).2

def step (r : Registry) : RegistryStep → Registry
  | .create config => (r.create config).2
  | .call id c => r.perform id c
  | .share id ring => r.modify id ({ · with ring := ring })
  | .remove id => (r.remove id).2
  | .reap => r.reap.2

/-- Sessions are kept under their numbers, and the next number is free. -/
def Numbered (r : Registry) : Prop :=
  ∀ id s, r.any? id = some s → s.id = id ∧ id < r.nextId

/-- `r'` is `r` with the session `s'` under `id`. -/
structure Replaces (r r' : Registry) (id : Nat) (s' : Session) : Prop where
  any? : ∀ id', r'.any? id' = if id = id' then some s' else r.any? id'
  nextId : r'.nextId = r.nextId

/-- Every session of `r` goes on in `r'`. -/
def Continues (r r' : Registry) : Prop :=
  ∀ id s, r.any? id = some s → ∃ s', r'.any? id = some s' ∧ s.Continues s'

end Registry

namespace Session

variable {s s' s'' : Session} {c : SessionCall}

theorem Continues.refl (s : Session) : s.Continues s :=
  ⟨⟨rfl, rfl, rfl⟩, fun h => h⟩

theorem continues_perform (s : Session) (hc : ∀ d, c ≠ .bind d) :
    s.Continues (s.perform c).2.1 :=
  ⟨s.keeps_perform hc, fun h => isTerminal_perform h c⟩

theorem id_of_create {host : Host} {home : Option RingHome} {id : Nat} {config : StreamConfig}
    {files : Directory} {handles : HandleTable}
    (h : (create host home id config files handles).1 = .ok s) : s.id = id := by
  unfold create at h
  split at h
  · cases h
  · split at h
    · cases h
    · dsimp only at h
      split at h
      · cases h
      · cases h
        rfl

end Session

namespace Registry

variable {r r' : Registry} {id : Nat} {s s' : Session} {c : SessionCall}

theorem any?_store (r : Registry) (s : Session) (id : Nat) :
    (r.store s).any? id = if s.id = id then some s else r.any? id := by
  simp only [store, any?, Table.get?_put, beq_iff_eq]

@[simp]
theorem any?_settle (r : Registry) (closing : Option Closing) (id : Nat) :
    (r.settle closing).any? id = r.any? id := by
  cases closing <;> rfl

@[simp]
theorem nextId_settle (r : Registry) (closing : Option Closing) :
    (r.settle closing).nextId = r.nextId := by
  cases closing <;> rfl

theorem perform_eq (r : Registry) (id : Nat) (c : SessionCall) :
    r.perform id c = match r.any? id with
      | none => r
      | some s => (r.store (s.perform c).2.1).settle (s.perform c).2.2 := by
  cases c <;> simp only [perform, apply, release, invalidate] <;> cases r.any? id <;> rfl

theorem store_replaces (r : Registry) (s : Session) : r.Replaces (r.store s) s.id s :=
  ⟨r.any?_store s, rfl⟩

theorem Replaces.numbered (h : r.Replaces r' id s') (hr : r.Numbered) (hs : r.any? id = some s)
    (hid : s'.id = id) : r'.Numbered := by
  intro id' t ht
  rw [h.any?] at ht
  rw [h.nextId]
  by_cases hsame : id = id'
  · rw [if_pos hsame] at ht
    cases ht
    obtain ⟨-, hnext⟩ := hr id s hs
    rw [← hsame]
    exact ⟨hid, hnext⟩
  · rw [if_neg hsame] at ht
    exact hr id' t ht

theorem Replaces.continues (h : r.Replaces r' id s') (hs : r.any? id = some s)
    (hlater : s.Continues s') : r.Continues r' := by
  intro id' t ht
  rw [h.any?]
  by_cases hsame : id = id'
  · rw [if_pos hsame]
    rw [← hsame, hs] at ht
    cases ht
    exact ⟨s', rfl, hlater⟩
  · rw [if_neg hsame]
    exact ⟨t, ht, .refl t⟩

theorem Continues.refl (r : Registry) : r.Continues r :=
  fun _ s hs => ⟨s, hs, .refl s⟩

theorem store_continues (hr : r.Numbered) (hs : r.any? id = some s) (h : s.Continues s') :
    (r.store s').Numbered ∧ r.Continues (r.store s') := by
  have hid : s'.id = id := h.id.trans (hr id s hs).1
  have hreplaces := r.store_replaces s'
  rw [hid] at hreplaces
  exact ⟨hreplaces.numbered hr hs hid, hreplaces.continues hs h⟩

theorem Numbered.settle (h : r.Numbered) (closing : Option Closing) :
    (r.settle closing).Numbered := by
  intro id s hs
  rw [any?_settle] at hs
  rw [nextId_settle]
  exact h id s hs

theorem Continues.settle (h : r.Continues r') (closing : Option Closing) :
    r.Continues (r'.settle closing) := by
  intro id s hs
  rw [any?_settle]
  exact h id s hs

theorem perform_continues (hr : r.Numbered) (id : Nat) (hc : ∀ d, c ≠ .bind d) :
    (r.perform id c).Numbered ∧ r.Continues (r.perform id c) := by
  rw [perform_eq]
  cases hs : r.any? id with
  | none => exact ⟨hr, .refl r⟩
  | some s =>
      obtain ⟨hnumbered, hcontinues⟩ := store_continues hr hs (s.continues_perform hc)
      exact ⟨hnumbered.settle _, hcontinues.settle _⟩

theorem create_continues (hr : r.Numbered) (config : StreamConfig) :
    (r.create config).2.Numbered ∧ r.Continues (r.create config).2 := by
  have hlater : ∀ id s, r.any? id = some s → s.id = id ∧ id < r.nextId + 1 := by
    intro id s hs
    obtain ⟨hid, hnext⟩ := hr id s hs
    exact ⟨hid, Nat.lt_succ_of_lt hnext⟩
  unfold create
  dsimp only
  split
  · exact ⟨hlater, .refl r⟩
  · rename_i s hmade
    have hid : s.id = r.nextId := Session.id_of_create hmade
    constructor
    · intro id t ht
      rcases Table.get?_put_cases ht with ⟨rfl, rfl⟩ | ⟨-, ht⟩
      · refine ⟨rfl, ?_⟩
        rw [hid]
        exact Nat.lt_succ_self _
      · exact hlater id t ht
    · intro id t ht
      have hne : ¬ s.id == id := by
        obtain ⟨-, hnext⟩ := hr id t ht
        rw [hid, beq_iff_eq]
        exact Nat.ne_of_gt hnext
      refine ⟨t, ?_, .refl t⟩
      show Table.get? (r.sessions.put s.id { s with reports := true }) id = some t
      rw [Table.get?_put, if_neg hne]
      exact ht

theorem share_continues (hr : r.Numbered) (id : Nat) (ring : Ring) :
    (r.step (.share id ring)).Numbered ∧ r.Continues (r.step (.share id ring)) := by
  have hany : ∀ id', (r.step (.share id ring)).any? id' =
      if id = id' then (r.any? id').map ({ · with ring := ring }) else r.any? id' := by
    intro id'
    simp only [step, modify, any?, Table.get?_modify, beq_iff_eq]
  constructor
  · intro id' s hs
    rw [hany] at hs
    by_cases hsame : id = id'
    · rw [if_pos hsame, Option.map_eq_some_iff] at hs
      obtain ⟨t, ht, rfl⟩ := hs
      exact hr id' t ht
    · rw [if_neg hsame] at hs
      exact hr id' s hs
  · intro id' s hs
    rw [hany]
    by_cases hsame : id = id'
    · rw [if_pos hsame, hs]
      exact ⟨_, rfl, ⟨rfl, rfl, rfl⟩, fun h => h⟩
    · rw [if_neg hsame]
      exact ⟨s, hs, .refl s⟩

theorem remove_continues (hr : r.Numbered) (id : Nat) :
    (r.remove id).2.Numbered ∧ r.Continues (r.remove id).2 := by
  have hrelease : ∀ d, SessionCall.release ≠ .bind d := fun d hc => by cases hc
  unfold remove
  split
  · exact ⟨hr, .refl r⟩
  · -- The list of sessions and its generation play no part in what is asked.
    exact perform_continues hr id hrelease

theorem reap_continues (hr : r.Numbered) : r.reap.2.Numbered ∧ r.Continues r.reap.2 := by
  unfold reap
  dsimp only
  split
  · exact ⟨hr, .refl r⟩
  · exact ⟨hr, .refl r⟩

/-- Whatever happens, but for a binding, sessions go on under their numbers. -/
theorem step_continues (hr : r.Numbered) (t : RegistryStep) (ht : ∀ id d, t ≠ .call id (.bind d)) :
    (r.step t).Numbered ∧ r.Continues (r.step t) := by
  cases t with
  | create config => exact create_continues hr config
  | call id c => exact perform_continues hr id fun d hc => ht id d (by rw [hc])
  | share id ring => exact share_continues hr id ring
  | remove id => exact remove_continues hr id
  | reap => exact reap_continues hr

end Registry
end Patchbay
