import Patchbay.Proofs.Ring.Destinations
import Patchbay.Proofs.Ring.Marks
import Patchbay.Proofs.Session.Shared

/-!
# Calls that fail

A call can be refused by the session, for the state that it is in, or by its ring, which may be
released, full or in use for reasons that the session knows nothing of. Whatever the reason, a call
that fails leaves everything as it found it: the session, what others see of its ring, the
destination of a read, the handles and the events. Only a frame that finds the ring full is
counted. A call that finds its side of the ring in use marks it once more, which nobody can see:
the sides of the rings are marked with zero and one and with nothing else.
-/
namespace Patchbay
open RingGeometry

/-- The ring is mapped as before and shows the same bytes. -/
structure Ring.Unmoved (r r' : Ring) : Prop where
  mapping : r'.mapping = r.mapping
  image : r'.memory.toList = r.memory.toList

/-- The overruns that are counted when the call fails. -/
def SessionCall.overruns : SessionCall → StreamError → Nat
  | .write _ _, .bufferFull => 1
  | _, _ => 0

/-- The session is as before, but for an overrun that is counted. -/
structure Session.Refuses (s : Session) (c : SessionCall) (e : StreamError) (s' : Session) :
    Prop where
  rest : s' = { s with
    ring := s'.ring
    position := { s.position with overruns := s.position.overruns + c.overruns e } }
  ring : s.ring.Unmoved s'.ring

/-- Others go by the rules when they use a ring past its session. -/
def SharedRegistryStep.Fair (t : SharedRegistryStep) : Prop :=
  t.Touches SharedStep.Fair

/-- The sides of all rings are marked with zero or one. -/
def Registry.Marked (r : Registry) : Prop :=
  ∀ id s, r.any? id = some s → s.ring.memory.Marked

namespace Memory

variable {m : Memory}

theorem byte_blit_slice (m : Memory) (i n j : Nat) :
    (m.blit i (m.slice i n)).byte j = m.byte j := by
  induction n generalizing m i with
  | zero => rfl
  | succ n ih =>
      have hset : ∀ k, (m.setByte i (m.byte i)).byte k = m.byte k := by
        intro k
        rw [byte_setByte]
        split
        · rename_i h
          rw [h.1]
        · rfl
      have hrest : m.slice (i + 1) n = (m.setByte i (m.byte i)).slice (i + 1) n :=
        (slice_congr fun k _ _ => hset k).symm
      rw [slice, blit, hrest, ih, hset]

theorem toList_set32_get32 (m : Memory) (i : Nat) : (m.set32 i (m.get32 i)).toList = m.toList := by
  have hword : LittleEndian.bytes 4 (m.get32 i).toNat = m.slice i 4 := by
    have hlt : LittleEndian.value (m.slice i 4) < 2 ^ 32 := by
      simpa using LittleEndian.value_lt (m.slice i 4)
    have hbytes := LittleEndian.bytes_value (m.slice i 4)
    rw [length_slice] at hbytes
    rw [get32, UInt32.toNat_ofNat_of_lt' hlt, hbytes]
  rw [toList, toList, size_set32, set32, hword]
  exact slice_congr fun j _ _ => m.byte_blit_slice i 4 j

end Memory

namespace RingMapping

variable {r : RingMapping} {m m' : Memory} {e : StreamError} {α : Type}

/-- A side that is found in use shows the same, and so does one whose body leaves no trace. -/
theorem image_enter {flagAt : Nat} {op : String} {body : Unit → Except StreamError α × Memory}
    (h : r.enter m flagAt op body = (.error e, m')) (hm : m.Marked) (hat : flagAt ∈ markOffsets)
    (hbody : ∀ e m', body () = (.error e, m') → m' = m) : m'.toList = m.toList := by
  unfold enter at h
  split at h
  · cases h
    rfl
  · split at h
    · rename_i hbusy
      cases h
      have hone : m.get32 flagAt = 1 := (hm flagAt hat).resolve_left hbusy
      simpa only [hone] using m.toList_set32_get32 flagAt
    · cases hbody _ _ h
      rfl

theorem image_write (hm : m.Marked) {frame : List UInt8} {t : UInt64}
    (h : r.write m frame t = (.error e, m')) : m'.toList = m.toList := by
  unfold write at h
  dsimp only at h
  split at h
  · cases h
    rfl
  · refine image_enter h hm (by decide) fun e m' hbody => ?_
    split at hbody
    · cases hbody
      rfl
    · cases hbody

theorem image_readInto (hm : m.Marked) {want : Nat} (h : r.readInto m want = (.error e, m')) :
    m'.toList = m.toList :=
  image_enter h hm (by decide) fun e m' hbody => by cases hbody

theorem image_flush (hm : m.Marked) (h : r.flush m = (.error e, m')) : m'.toList = m.toList :=
  image_enter h hm (by decide) fun e m' hbody => by cases hbody

end RingMapping

namespace Ring

variable {r r' : Ring} {e : StreamError} {α : Type}

theorem Unmoved.refl (r : Ring) : r.Unmoved r :=
  ⟨rfl, rfl⟩

/-- What holds of the memory when a call fails holds of the ring. -/
theorem unmoved_apply {op : RingMapping → Memory → Except StreamError α × Memory}
    (h : r.apply op = (.error e, r'))
    (hop : ∀ m', op r.mapping r.memory = (.error e, m') → m'.toList = r.memory.toList) :
    r.Unmoved r' := by
  unfold apply at h
  generalize hout : op r.mapping r.memory = out at h
  obtain ⟨a, m'⟩ := out
  cases h
  exact ⟨rfl, hop m' hout⟩

end Ring

namespace Session

variable {s s' : Session} {c : SessionCall} {e : StreamError}

/-- A call that is refused by the session leaves even the ring alone. -/
theorem refuses_self (hc : c.overruns e = 0) : s.Refuses c e s :=
  ⟨by simp [hc], .refl _⟩

theorem unmoved_flushRing (hm : s.ring.memory.Marked) (h : s.flushRing = (.error e, s')) :
    s' = { s with ring := s'.ring } ∧ s.ring.Unmoved s'.ring := by
  unfold flushRing at h
  split at h
  · rename_i hflush
    cases h
    exact ⟨rfl, Ring.unmoved_apply hflush fun _ => RingMapping.image_flush hm⟩
  · rename_i hflush
    cases h
    exact ⟨rfl, Ring.unmoved_apply hflush fun _ => RingMapping.image_flush hm⟩

theorem refuses_flush (hm : s.ring.memory.Marked) (h : s.flush = (.error e, s')) :
    s.Refuses .flush e s' := by
  have hring : s.flushRing = (.error e, s') → s.Refuses .flush e s' := by
    intro h
    obtain ⟨hrest, hring⟩ := unmoved_flushRing hm h
    exact ⟨hrest, hring⟩
  unfold flush at h
  split at h
  · exact hring h
  · exact hring h
  · cases h
    exact refuses_self rfl

theorem refuses_pause (hm : s.ring.memory.Marked) {discard : Bool}
    (h : s.pause discard = (.error e, s')) : s.Refuses (.pause discard) e s' := by
  unfold pause at h
  split at h
  · rename_i hrunning
    dsimp only at h
    split at h
    · split at h
      · cases h
      · rename_i hflush
        cases h
        obtain ⟨hrest, hring⟩ := unmoved_flushRing (s := { s with state := .paused }) hm hflush
        refine ⟨?_, hring⟩
        rw [hrest, ← hrunning]
        rfl
    · cases h
  · cases h
    exact refuses_self rfl

theorem refuses_write (hm : s.ring.memory.Marked) {frame : List UInt8} {t : UInt64}
    (h : s.write frame t = (.error e, s')) : s.Refuses (.write frame t) e s' := by
  unfold write at h
  split at h
  · cases h
    exact refuses_self rfl
  · split at h
    · cases h
    · rename_i hwrite
      cases h
      exact ⟨rfl, Ring.unmoved_apply hwrite fun _ => RingMapping.image_write hm⟩
    · rename_i e' ring hother hwrite
      cases h
      have hnone : (SessionCall.write frame t).overruns e = 0 := by
        cases e <;> first | rfl | exact absurd rfl hother
      exact ⟨by simp [hnone], Ring.unmoved_apply hwrite fun _ => RingMapping.image_write hm⟩

theorem refuses_read (hm : s.ring.memory.Marked) {want : Nat} (h : s.read want = (.error e, s')) :
    s.Refuses (.read want) e s' := by
  unfold read at h
  split at h
  · cases h
    exact refuses_self rfl
  · split at h
    · rename_i hread
      cases h
      exact ⟨rfl, Ring.unmoved_apply hread fun _ => RingMapping.image_readInto hm⟩
    · cases h

theorem eq_of_resolve (h : s.resolve = (.error e, s')) : s' = s := by
  unfold resolve at h
  split at h
  · cases h
    rfl
  · split at h <;> cases h

theorem eq_of_start (h : s.start = (.error e, s')) : s' = s := by
  unfold start at h
  split at h
  · split at h <;> cases h
  · split at h <;> cases h
  · cases h
    rfl

theorem eq_of_resume (h : s.resume = (.error e, s')) : s' = s := by
  unfold resume at h
  split at h
  · split at h <;> cases h
  · cases h
    rfl

theorem eq_of_stop (h : s.stop = (.error e, s')) : s' = s := by
  unfold stop at h
  dsimp only at h
  split at h
  · cases h
  · cases h
  · split at h
    · cases h
    · cases h
      rfl
  · cases h
    rfl

theorem eq_of_bind {d : Device} (h : s.bind d = (.error e, s')) : s' = s := by
  unfold bind at h
  split at h
  · cases h
    rfl
  · cases h

/-- Every call that fails is a refusal, and nothing ends by it. -/
theorem refuses_perform (hm : s.ring.memory.Marked) (h : (s.perform c).1 = .error e) :
    s.Refuses c e (s.perform c).2.1 ∧ (s.perform c).2.2 = none := by
  have hgoing : ∀ {α : Type} (f : α → SessionAnswer) (p : Except StreamError α × Session),
      (going f p).1 = .error e → p = (.error e, p.2) := by
    rintro α f ⟨a, s'⟩ ha
    cases a with
    | ok a => cases ha
    | error e' =>
        cases ha
        rfl
  have hsame : (s.perform c).2.1 = s → c.overruns e = 0 → s.Refuses c e (s.perform c).2.1 := by
    intro heq hc
    rw [heq]
    exact refuses_self hc
  cases c with
  | resolve => exact ⟨hsame (eq_of_resolve (hgoing _ _ h)) rfl, rfl⟩
  | start => exact ⟨hsame (eq_of_start (hgoing _ _ h)) rfl, rfl⟩
  | pause discard => exact ⟨refuses_pause hm (hgoing _ _ h), rfl⟩
  | resume => exact ⟨hsame (eq_of_resume (hgoing _ _ h)) rfl, rfl⟩
  | stop => exact ⟨hsame (eq_of_stop (hgoing _ _ h)) rfl, rfl⟩
  | flush => exact ⟨refuses_flush hm (hgoing _ _ h), rfl⟩
  | bind d => exact ⟨hsame (eq_of_bind (hgoing _ _ h)) rfl, rfl⟩
  | release =>
      by_cases hreleased : s.state = .released
      · have hrelease : s.perform .release = (.error (s.illegal "release"), s, none) := by
          simp [perform, release, hreleased, Except.map]
        rw [hrelease]
        exact ⟨refuses_self rfl, rfl⟩
      · simp [perform, release, hreleased, Except.map] at h
  | invalidate reason => cases h
  | write frame t => exact ⟨refuses_write hm (hgoing _ _ h), rfl⟩
  | read want => exact ⟨refuses_read hm (hgoing _ _ h), rfl⟩
  | info => exact ⟨refuses_self rfl, rfl⟩

end Session

namespace Registry
variable {r : Registry}

theorem Marked.step (h : r.Marked) (hr : r.Shared) {t : SharedRegistryStep} (ht : t.Fair) :
    (r.sharedStep t).Marked := by
  intro id s' hs'
  rcases sharedStep_ringsFrom SharedStep.Fair.call hr.numbered ht id s' hs' with
    ⟨-, -, first, hholds, -⟩ | ⟨s, steps, hs, hsteps, hring⟩
  · intro flagAt hat
    simp only [markOffsets, List.mem_cons, List.not_mem_nil, or_false] at hat
    rcases hat with rfl | rfl
    · exact .inl hholds.producer
    · exact .inl hholds.consumer
  · rw [hring]
    exact Ring.marked_run (h id s hs) (hr.fits id s hs) (hr.geometry id s hs) hsteps

theorem marked_run (h : r.Marked) (hr : r.Shared) {steps : List SharedRegistryStep}
    (hsteps : ∀ t ∈ steps, t.Fair) :
    (steps.foldl sharedStep r).Marked ∧ (steps.foldl sharedStep r).Shared := by
  induction steps generalizing r with
  | nil => exact ⟨h, hr⟩
  | cons t later ih =>
      rw [List.forall_mem_cons] at hsteps
      exact ih (h.step hr hsteps.1) (hr.step t) hsteps.2

theorem marked_empty {host : Host} {home : Option Session.RingHome} {files : Directory} :
    Marked { host := host, home := home, files := files } :=
  fun _ _ hs => (Option.some_ne_none _ hs.symm).elim

end Registry

/-- Whatever happened before to the sessions and to their rings, a call that fails changes nothing.
The session is the same but for the overrun that a frame counts which found the ring full, and its
ring shows the same bytes. Of the registry no handle, no event, no file and no other session is
touched, and a destination that was to be filled is as it was. -/
theorem failed_call_changes_nothing (host : Host) (home : Option Session.RingHome)
    (files : Directory) {steps : List SharedRegistryStep} (hsteps : ∀ t ∈ steps, t.Fair)
    {r : Registry}
    (hrun : steps.foldl Registry.sharedStep { host := host, home := home, files := files } = r)
    {id : Nat} {s : Session} (hs : r.any? id = some s) {c : SessionCall} {e : StreamError}
    (h : (s.perform c).1 = .error e) :
    s.Refuses c e (s.perform c).2.1 ∧ (s.perform c).2.2 = none ∧
      r.perform id c = { r with sessions := r.sessions.put id (s.perform c).2.1 } ∧
      ∀ dest, c = .read dest.length →
        s.readOnto dest = (.error e, dest, (s.perform c).2.1) := by
  obtain ⟨hmarked, hr⟩ :=
    hrun ▸ Registry.marked_run Registry.marked_empty Registry.shared_empty hsteps
  obtain ⟨hrefuses, hclosing⟩ := Session.refuses_perform (hmarked id s hs) h
  refine ⟨hrefuses, hclosing, ?_, ?_⟩
  · have hid : (s.perform c).2.1.id = id :=
      ((s.marks_perform c).id).trans (hr.numbered id s hs).1
    rw [Registry.perform_eq, hs]
    dsimp only
    rw [hclosing, Registry.settle, Registry.store, hid]
  · rintro dest rfl
    rw [Session.readOnto_eq]
    simp only [Session.perform, Session.going] at h ⊢
    generalize s.read dest.length = out at h ⊢
    obtain ⟨a, s'⟩ := out
    cases a with
    | ok got => cases h
    | error e' =>
        cases h
        rfl

/-- A pause that is to discard what is unread finds a reader at work, and the session plays on. -/
theorem pause_taken_back_while_read :
    let speaker : Device := { type := .speaker, role := .output, connectedAt := 1 }
    let steps : List SharedRegistryStep := [.create ⟨.render .music, {}, 1000, 4, 4⟩,
      .call 1 .resolve, .call 1 (.bind speaker), .call 1 .start,
      .touch 1 (.call (.write [1, 2, 3, 4] 5)), .touch 1 (.overwrite consumerBusyAt [1, 0, 0, 0])]
    let r := steps.foldl Registry.sharedStep {}
    ∃ s, (∀ t ∈ steps, t.Fair) ∧ r.any? 1 = some s ∧ s.isRunning ∧
      (s.perform (.pause true)).1 = .error (.illegalState "flush" "Paused") ∧
      s.Refuses (.pause true) (.illegalState "flush" "Paused") (s.perform (.pause true)).2.1 := by
  intro speaker steps r
  have hsteps : ∀ t ∈ steps, t.Fair := by
    have hwrite : SharedStep.Fair (.call (.write [1, 2, 3, 4] 5)) := .call _
    have hmark : SharedStep.Fair (.overwrite consumerBusyAt [1, 0, 0, 0]) :=
      .mark (w := 1) (by decide) (.inr rfl)
    simp [steps, SharedRegistryStep.Fair, SharedRegistryStep.Touches, hwrite, hmark]
  obtain ⟨s, hs, hrunning, hpause⟩ : ∃ s, r.any? 1 = some s ∧ s.isRunning ∧
      (s.pause true).1 = .error (.illegalState "flush" "Paused") :=
    ⟨_, rfl, by decide +kernel, by decide +kernel⟩
  have hfails : (s.perform (.pause true)).1 = .error (.illegalState "flush" "Paused") := by
    simp [Session.perform, Session.going, hpause, Except.map]
  exact ⟨s, hsteps, hs, hrunning, hfails,
    (failed_call_changes_nothing {} none ∅ hsteps rfl hs hfails).1⟩

end Patchbay
