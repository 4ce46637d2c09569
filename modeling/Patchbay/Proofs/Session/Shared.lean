import Patchbay.Proofs.Ring.Bounds
import Patchbay.Proofs.Session.Counters

/-!
# Registries with shared rings

The ring of a session is used by others than the session: who has claimed it calls its mapping,
and who has mapped it may put anything into the memory. The books of the registry go on to agree,
its counters go on to tell what happens to the sessions, and every ring stays one of the geometry
that it was made with.
-/
namespace Patchbay

/-- What happens in a registry whose rings are shared. -/
inductive SharedRegistryStep where
  | create (config : StreamConfig)
  | call (id : Nat) (c : SessionCall)
  | control (id : Nat) (controls : Controls)
  | claim (handle : Nat)
  /-- The ring of a session is used past the session. -/
  | touch (id : Nat) (t : SharedStep)
  | remove (id : Nat)
  | reap

/-- What others do to a ring in the step is as `p` says. -/
def SharedRegistryStep.Touches (p : SharedStep → Prop) : SharedRegistryStep → Prop
  | .touch _ t => p t
  | _ => True

namespace Registry

def sharedStep (r : Registry) : SharedRegistryStep → Registry
  | .create config => (r.create config).2
  | .call id c => r.perform id c
  | .control id controls => r.modify id ({ · with controls := controls })
  | .claim handle => (r.claim handle).2
  | .touch id t => r.modify id fun s => { s with ring := s.ring.step t }
  | .remove id => (r.remove id).2
  | .reap => r.reap.2

/-- Every ring of `r'` is fresh or a ring of `r` after steps as `p` says. -/
def RingsFrom (p : SharedStep → Prop) (r r' : Registry) : Prop :=
  ∀ id s', r'.any? id = some s' → s'.ring.IsFresh ∨
    ∃ s steps, r.any? id = some s ∧ (∀ t ∈ steps, p t) ∧ s'.ring = s.ring.run steps

/-- The books agree, the list is in order and every ring has its memory. -/
structure Shared (r : Registry) : Prop extends r.Booked where
  ascending : r.listed.Pairwise (· < ·)
  geometry : ∀ id s, r.any? id = some s → s.ring.mapping.geometry.check = .ok ()
  fits : ∀ id s, r.any? id = some s → s.ring.Fits s.ring.mapping.geometry

end Registry

namespace Session

theorem ring_flushRing (s : Session) : s.flushRing.2.ring = s.ring.step (.call .flush) := by
  unfold flushRing
  split <;>
    · rename_i h
      exact congrArg Prod.snd h.symm

/-- Whatever is asked of a session, its ring is asked at most one thing for it. -/
theorem ring_perform (s : Session) (c : SessionCall) :
    ∃ calls : List RingCall, (s.perform c).2.1.ring = s.ring.run (calls.map .call) := by
  cases c with
  | resolve =>
      refine ⟨[], ?_⟩
      show s.resolve.2.ring = s.ring
      unfold resolve
      split
      · rfl
      · split <;> rfl
  | start =>
      refine ⟨[], ?_⟩
      show s.start.2.ring = s.ring
      unfold start
      split
      · split <;> rfl
      · split <;> rfl
      · rfl
  | pause discard =>
      show ∃ calls : List RingCall, (s.pause discard).2.ring = s.ring.run (calls.map .call)
      unfold pause
      split
      · have hflush := ring_flushRing { s with state := .paused }
        dsimp only at hflush ⊢
        split
        · refine ⟨[.flush], ?_⟩
          split <;>
            · rename_i h
              rw [h] at hflush
              exact hflush
        · exact ⟨[], rfl⟩
      · exact ⟨[], rfl⟩
  | resume =>
      refine ⟨[], ?_⟩
      show s.resume.2.ring = s.ring
      unfold resume
      split
      · split <;> rfl
      · rfl
  | stop =>
      refine ⟨[], ?_⟩
      show s.stop.2.ring = s.ring
      unfold stop
      dsimp only
      split
      · rfl
      · rfl
      · split <;> rfl
      · rfl
  | flush =>
      show ∃ calls : List RingCall, s.flush.2.ring = s.ring.run (calls.map .call)
      unfold flush
      split
      · exact ⟨[.flush], s.ring_flushRing⟩
      · exact ⟨[.flush], s.ring_flushRing⟩
      · exact ⟨[], rfl⟩
  | bind d =>
      refine ⟨[], ?_⟩
      show (s.bind d).2.ring = s.ring
      unfold bind
      split
      · rfl
      · dsimp only
        split
        · split <;> rfl
        · split <;> rfl
  | release =>
      show ∃ calls : List RingCall, s.release.2.1.ring = s.ring.run (calls.map .call)
      unfold release
      split
      · exact ⟨[], rfl⟩
      · exact ⟨[.release], rfl⟩
  | invalidate reason =>
      show ∃ calls : List RingCall, (s.invalidate reason).1.ring = s.ring.run (calls.map .call)
      unfold invalidate
      split
      · exact ⟨[], rfl⟩
      · exact ⟨[.release], rfl⟩
  | write frame t =>
      show ∃ calls : List RingCall, (s.write frame t).2.ring = s.ring.run (calls.map .call)
      unfold write
      split
      · exact ⟨[], rfl⟩
      · refine ⟨[.write frame t], ?_⟩
        split <;>
          · rename_i h
            exact congrArg Prod.snd h.symm
  | read want =>
      show ∃ calls : List RingCall, (s.read want).2.ring = s.ring.run (calls.map .call)
      unfold read
      split
      · exact ⟨[], rfl⟩
      · refine ⟨[.readInto want], ?_⟩
        split <;>
          · rename_i h
            exact congrArg Prod.snd h.symm
  | info => exact ⟨[], rfl⟩

end Session

namespace Ring

variable {r : Ring}

theorem isClosed_step (h : r.mapping.isClosed) (t : SharedStep) :
    (r.step t).mapping.isClosed := by
  cases t with
  | overwrite offset bytes => exact h
  | call c =>
      cases c with
      | release =>
          show (r.mapping.release r.memory).1.isClosed
          rw [RingMapping.release, if_pos h]
          exact h
      | _ => exact h

theorem Fits.self_run (h : r.Fits r.mapping.geometry) (hg : r.mapping.geometry.check = .ok ())
    (steps : List SharedStep) :
    (r.run steps).mapping.geometry.check = .ok () ∧
      (r.run steps).Fits (r.run steps).mapping.geometry := by
  have hrun := h.run hg steps
  rw [hrun.geometry]
  exact ⟨hg, hrun⟩

theorem IsFresh.fits (h : r.IsFresh) : r.Fits r.mapping.geometry := by
  obtain ⟨-, -, first, hholds, -⟩ := h
  exact ⟨rfl, hholds.size⟩

end Ring

namespace Registry

variable {r r' : Registry} {id : Nat} {s : Session}

/-- To use a ring past its session is nothing that the books know of. -/
theorem Booked.touch (h : r.Booked) (id : Nat) (t : SharedStep) :
    (r.modify id fun s => { s with ring := s.ring.step t }).Booked := by
  generalize hr' : (r.modify id fun s => { s with ring := s.ring.step t }) = r'
  have hlater : ∀ id' s, r.any? id' = some s → ∃ ring, r'.any? id' = some { s with ring := ring } ∧
      (s.ring.mapping.isClosed → ring.mapping.isClosed) := by
    intro id' s hs
    rw [← hr', any?_modify, hs]
    by_cases hsame : id = id'
    · exact ⟨_, if_pos hsame, fun hclosed => Ring.isClosed_step hclosed t⟩
    · exact ⟨s.ring, if_neg hsame, fun hclosed => hclosed⟩
  have hearlier : ∀ id' s', r'.any? id' = some s' → ∃ s ring, r.any? id' = some s ∧
      s' = { s with ring := ring } ∧ (s.ring.mapping.isClosed → ring.mapping.isClosed) := by
    intro id' s' hs'
    cases hs : r.any? id' with
    | none =>
        rw [← hr', any?_modify, hs, Option.map_none, ite_self] at hs'
        cases hs'
    | some s =>
        obtain ⟨ring, hring, hclosed⟩ := hlater id' s hs
        exact ⟨s, ring, rfl, Option.some.inj (hs'.symm.trans hring), hclosed⟩
  have hbooks : r'.nextId = r.nextId ∧ r'.listed = r.listed ∧ r'.handles = r.handles ∧
      r'.events = r.events := by
    rw [← hr']
    exact ⟨rfl, rfl, rfl, rfl⟩
  obtain ⟨hnext, hlisted, hhandles, hevents⟩ := hbooks
  constructor
  · intro id' s' hs'
    obtain ⟨s, ring, hs, rfl, -⟩ := hearlier id' s' hs'
    rw [hnext]
    exact h.numbered id' s hs
  · intro id' s' hs'
    obtain ⟨s, ring, hs, rfl, -⟩ := hearlier id' s' hs'
    exact h.heard id' s hs
  · rw [hlisted]
    exact h.distinct
  · intro id' hid'
    rw [hlisted] at hid'
    obtain ⟨s, hs⟩ := h.known id' hid'
    obtain ⟨ring, hs', -⟩ := hlater id' s hs
    exact ⟨_, hs'⟩
  · intro id' s' hs' hlive
    obtain ⟨s, ring, hs, rfl, -⟩ := hearlier id' s' hs'
    rw [hlisted]
    exact h.live id' s hs hlive
  · intro handle
    rw [hhandles, h.handles]
    constructor
    · rintro ⟨id', s, hs, hlive, hhandle⟩
      obtain ⟨ring, hs', -⟩ := hlater id' s hs
      exact ⟨id', _, hs', hlive, hhandle⟩
    · rintro ⟨id', s', hs', hlive, hhandle⟩
      obtain ⟨s, ring, hs, rfl, -⟩ := hearlier id' s' hs'
      exact ⟨id', s, hs, hlive, hhandle⟩
  · intro id' s' hs'
    obtain ⟨s, ring, hs, rfl, -⟩ := hearlier id' s' hs'
    rw [hhandles]
    exact h.issued id' s hs
  · intro id₁ id₂ s₁' s₂' hs₁' hs₂' hsame
    obtain ⟨s₁, ring₁, hs₁, rfl, -⟩ := hearlier id₁ s₁' hs₁'
    obtain ⟨s₂, ring₂, hs₂, rfl, -⟩ := hearlier id₂ s₂' hs₂'
    exact h.separate id₁ id₂ s₁ s₂ hs₁ hs₂ hsame
  · intro id' s' hs' hend
    obtain ⟨s, ring, hs, rfl, hclosed⟩ := hearlier id' s' hs'
    exact hclosed (h.closed id' s hs hend)
  · intro e he
    rw [hevents] at he
    obtain ⟨s, hs, hend⟩ := h.announced e he
    obtain ⟨ring, hs', -⟩ := hlater _ s hs
    exact ⟨_, hs', hend⟩

theorem Booked.sharedStep (h : r.Booked) (t : SharedRegistryStep) : (r.sharedStep t).Booked := by
  cases t with
  | create config => exact h.create config
  | call id c => exact h.perform id c
  | control id controls =>
      exact h.goesOn (r.modify_goesOn id fun _ => ⟨rfl, rfl, rfl, rfl, rfl⟩)
  | claim handle => exact h.goesOn (r.claim_goesOn handle)
  | touch id t => exact h.touch id t
  | remove id => exact h.remove id
  | reap => exact h.reap.toBooked

theorem sharedStep_marks (hr : r.Numbered) (t : SharedRegistryStep) :
    r.Marks (r.sharedStep t) := by
  cases t with
  | create config => exact create_marks hr config
  | call id c => exact perform_marks hr id c
  | control id controls => exact r.modify_marks id fun _ => ⟨⟨rfl, rfl, rfl⟩, rfl⟩
  | claim handle => exact ⟨Nat.le_refl _, fun _ => rfl, fun _ s hs => ⟨s, hs, .refl s⟩⟩
  | touch id t => exact r.modify_marks id fun _ => ⟨⟨rfl, rfl, rfl⟩, rfl⟩
  | remove id => exact remove_marks hr id
  | reap => exact r.reap_marks

section RingsFrom
variable {p : SharedStep → Prop}

theorem RingsFrom.refl (r : Registry) : r.RingsFrom p r :=
  fun _ s hs => Or.inr ⟨s, [], hs, by simp, rfl⟩

theorem modify_ringsFrom (r : Registry) (id : Nat) {f : Session → Session}
    (hf : ∀ s : Session, ∃ steps, (∀ t ∈ steps, p t) ∧ (f s).ring = s.ring.run steps) :
    r.RingsFrom p (r.modify id f) := by
  intro id' s' hs'
  rw [any?_modify] at hs'
  split at hs'
  · obtain ⟨s, hs, rfl⟩ := Option.map_eq_some_iff.mp hs'
    obtain ⟨steps, hsteps, hring⟩ := hf s
    exact Or.inr ⟨s, steps, hs, hsteps, hring⟩
  · exact RingsFrom.refl r id' s' hs'

theorem create_ringsFrom (hr : r.Numbered) (config : StreamConfig) :
    r.RingsFrom p (r.create config).2 := by
  rcases r.create_cases config with ⟨e, files, hmade⟩ | ⟨ring, files, hfresh, hmade⟩
  · rw [hmade]
    exact RingsFrom.refl r
  · rw [hmade]
    intro id s' hs'
    rcases hr.get?_put_next.mp hs' with ⟨-, rfl⟩ | hold
    · exact Or.inl hfresh
    · exact RingsFrom.refl r id s' hold

theorem reap_ringsFrom (r : Registry) : r.RingsFrom p r.reap.2 := by
  obtain ⟨generation, hreap⟩ := r.reap_eq
  rw [hreap]
  exact RingsFrom.refl r

variable (hp : ∀ c, p (.call c))
include hp

theorem perform_ringsFrom (hr : r.Numbered) (id : Nat) (c : SessionCall) :
    r.RingsFrom p (r.perform id c) := by
  intro id' s' hs'
  rcases perform_cases hr hs' with ⟨s, hs, rfl, rfl⟩ | ⟨-, hold⟩
  · obtain ⟨calls, hring⟩ := s.ring_perform c
    exact Or.inr ⟨s, calls.map .call, hs, List.forall_mem_map.mpr fun c _ => hp c, hring⟩
  · exact RingsFrom.refl r id' s' hold

theorem remove_ringsFrom (hr : r.Numbered) (id : Nat) : r.RingsFrom p (r.remove id).2 := by
  rcases r.remove_cases id with hnone | ⟨-, hremove⟩
  · rw [hnone]
    exact RingsFrom.refl r
  · rw [hremove]
    exact perform_ringsFrom hp hr id .release

theorem sharedStep_ringsFrom (hr : r.Numbered) {t : SharedRegistryStep} (ht : t.Touches p) :
    r.RingsFrom p (r.sharedStep t) := by
  cases t with
  | create config => exact create_ringsFrom hr config
  | call id c => exact perform_ringsFrom hp hr id c
  | control id controls => exact r.modify_ringsFrom id fun s => ⟨[], by simp, rfl⟩
  | claim handle => exact RingsFrom.refl r
  | touch id t =>
      exact r.modify_ringsFrom id fun s => ⟨[t], List.forall_mem_singleton.mpr ht, rfl⟩
  | remove id => exact remove_ringsFrom hp hr id
  | reap => exact r.reap_ringsFrom

end RingsFrom

theorem shared_empty {host : Host} {home : Option Session.RingHome} {files : Directory} :
    Shared { host := host, home := home, files := files } where
  toBooked := accounted_empty.toBooked
  ascending := List.Pairwise.nil
  geometry := fun id s hs => by cases hs
  fits := fun id s hs => by cases hs

theorem Shared.toAscending (h : r.Shared) : r.Ascending :=
  ⟨h.numbered, h.heard, h.known, h.ascending⟩

theorem Shared.step (h : r.Shared) (t : SharedRegistryStep) : (r.sharedStep t).Shared := by
  have hrings : ∀ id s', (r.sharedStep t).any? id = some s' →
      s'.ring.mapping.geometry.check = .ok () ∧ s'.ring.Fits s'.ring.mapping.geometry := by
    intro id s' hs'
    have hany : t.Touches fun _ => True := by cases t <;> trivial
    rcases sharedStep_ringsFrom (fun _ => trivial) h.numbered hany id s' hs' with
      hfresh | ⟨s, steps, hs, -, hring⟩
    · exact ⟨hfresh.1, hfresh.fits⟩
    · rw [hring]
      exact (h.fits id s hs).self_run (h.geometry id s hs) steps
  have hascending : (r.sharedStep t).listed.Pairwise (· < ·) := by
    cases t with
    | create config => exact (h.toAscending.step (.create config)).ascending
    | call id c => exact (h.toAscending.step (.call id c)).ascending
    | remove id => exact (h.toAscending.step (.remove id)).ascending
    | reap => exact (h.toAscending.step .reap).ascending
    | control id controls => exact h.ascending
    | claim handle => exact h.ascending
    | touch id t => exact h.ascending
  exact ⟨h.toBooked.sharedStep t, hascending, fun id s' hs' => (hrings id s' hs').1,
    fun id s' hs' => (hrings id s' hs').2⟩

end Registry
end Patchbay
