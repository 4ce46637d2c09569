import Patchbay.Proofs.Ring.Bounds

/-!
# The marks of a ring

A call marks the side of the ring that it uses with a one, and with a zero when it is done. All
else that a call puts into the memory goes elsewhere. So as long as the other side does no more
to the marks than its own calls would, each side is marked with one of the two numbers, whatever
happens to the rest of the memory.
-/
namespace Patchbay
open Memory RingGeometry

/-- Where the producer and the consumer are marked. -/
def RingGeometry.markOffsets : List Nat := [producerBusyAt, consumerBusyAt]

/-- Both sides are marked with zero or one. -/
def Memory.Marked (m : Memory) : Prop :=
  ∀ flagAt ∈ markOffsets, m.get32 flagAt = 0 ∨ m.get32 flagAt = 1

/-- The other side calls its mapping, marks a side of the ring as taken or as free, or puts
anything anywhere but over the marks. -/
inductive SharedStep.Fair : SharedStep → Prop where
  | call (c : RingCall) : Fair (.call c)
  | mark {flagAt : Nat} {w : UInt32} (hat : flagAt ∈ markOffsets) (hw : w = 0 ∨ w = 1) :
      Fair (.overwrite flagAt (LittleEndian.bytes 4 w.toNat))
  | elsewhere {offset : Nat} {bytes : List UInt8}
      (h : offset + bytes.length ≤ producerBusyAt ∨ consumerBusyAt + 4 ≤ offset) :
      Fair (.overwrite offset bytes)

/-- The second memory has the marks of the first. -/
structure Memory.KeepsMarks (m m' : Memory) : Prop where
  byte : ∀ j, producerBusyAt ≤ j → j < consumerBusyAt + 4 → m'.byte j = m.byte j

namespace Memory
variable {m m' m'' : Memory}

theorem keepsMarks_refl (m : Memory) : m.KeepsMarks m :=
  ⟨fun _ _ _ => rfl⟩

theorem KeepsMarks.trans (h : m.KeepsMarks m') (h' : m'.KeepsMarks m'') : m.KeepsMarks m'' :=
  ⟨fun j hlow hhigh => (h'.byte j hlow hhigh).trans (h.byte j hlow hhigh)⟩

theorem KeepsMarks.blit {i : Nat} {bytes : List UInt8} (h : m.KeepsMarks m')
    (hout : i + bytes.length ≤ producerBusyAt ∨ consumerBusyAt + 4 ≤ i) :
    m.KeepsMarks (m'.blit i bytes) :=
  h.trans ⟨fun _ _ _ => byte_blit_of_outside (by omega)⟩

theorem KeepsMarks.set64 {i : Nat} {w : UInt64} (h : m.KeepsMarks m')
    (hout : i + 8 ≤ producerBusyAt ∨ consumerBusyAt + 4 ≤ i) : m.KeepsMarks (m'.set64 i w) :=
  h.blit (by simpa using hout)

theorem Marked.keeps (h : m.Marked) (hsame : m.KeepsMarks m') : m'.Marked := by
  intro flagAt hat
  have hflag : m'.get32 flagAt = m.get32 flagAt := by
    refine get32_congr fun j hlow hhigh => hsame.byte j ?_ ?_
    all_goals
      simp only [markOffsets, List.mem_cons, List.not_mem_nil, or_false] at hat
      rcases hat with rfl | rfl <;> simp only [producerBusyAt, consumerBusyAt] at * <;> omega
  rw [hflag]
  exact h flagAt hat

theorem Marked.set32 (h : m.Marked) (hsize : headerBytes ≤ m.size) {flagAt : Nat} {w : UInt32}
    (hat : flagAt ∈ markOffsets) (hw : w = 0 ∨ w = 1) : (m.set32 flagAt w).Marked := by
  intro otherAt hother
  by_cases hsame : otherAt = flagAt
  · subst hsame
    have hin : otherAt + 4 ≤ m.size := by
      refine Nat.le_trans ?_ hsize
      simp only [markOffsets, List.mem_cons, List.not_mem_nil, or_false] at hat
      rcases hat with rfl | rfl <;> decide
    rw [get32_set32_self hin]
    exact hw
  · have hapart : otherAt + 4 ≤ flagAt ∨ flagAt + 4 ≤ otherAt := by
      simp only [markOffsets, List.mem_cons, List.not_mem_nil, or_false] at hat hother
      simp only [producerBusyAt, consumerBusyAt] at hat hother
      omega
    rw [get32_set32_of_disjoint hapart]
    exact h otherAt hother

end Memory

namespace RingMapping
variable {r : RingMapping} {m : Memory} {α : Type}

theorem keepsMarks_advance (m : Memory) (cursor : UInt64) (consumed valid : Nat) :
    m.KeepsMarks (advance m cursor consumed valid) := by
  unfold advance
  split
  · exact ((keepsMarks_refl m).set64 (.inl (by decide))).set64 (.inl (by decide))
  · exact (keepsMarks_refl m).set64 (.inl (by decide))

theorem keepsMarks_gather (g : RingGeometry) (write cursor : UInt64) (want : Nat) (m : Memory) :
    m.KeepsMarks (gather g write cursor want m).2.2 := by
  fun_induction gather g write cursor want m with
  | case1 cursor want m hmore e n chunk time m' hdone next ih =>
      have hadvance : m.KeepsMarks m' := keepsMarks_advance ..
      exact hadvance.trans ih
  | case2 cursor want m hmore e n chunk time m' hleft =>
      dsimp only
      exact keepsMarks_advance ..
  | case3 cursor want m hend => exact keepsMarks_refl m

theorem marked_enter {flagAt : Nat} {op : String} {body : Unit → Except StreamError α × Memory}
    (h : m.Marked) (hsize : headerBytes ≤ m.size) (hat : flagAt ∈ markOffsets)
    (hbody : m.KeepsMarks (body ()).2) : (r.enter m flagAt op body).2.Marked := by
  unfold enter
  split
  · exact h
  · split
    · exact h.set32 hsize hat (.inr rfl)
    · exact h.keeps hbody

theorem marked_write (h : m.Marked) (hsize : headerBytes ≤ m.size) (frame : List UInt8)
    (timestamp : UInt64) : (r.write m frame timestamp).2.Marked := by
  unfold write
  dsimp only
  split
  · exact h
  · refine marked_enter h hsize (by decide) ?_
    split
    · exact keepsMarks_refl m
    · have hdata : consumerBusyAt + 4 ≤ r.geometry.dataAt (m.get64 writeAt) := by
        unfold dataAt headerBytes consumerBusyAt
        omega
      have hmeta : consumerBusyAt + 4 ≤ r.geometry.metaAt (m.get64 writeAt) := by
        unfold metaAt headerBytes consumerBusyAt
        omega
      dsimp only
      refine (((keepsMarks_refl m).blit (.inr hdata)).set64 (.inr hmeta)).set64 ?_ |>.set64 ?_
      · exact .inr (Nat.le_add_right_of_le hmeta)
      · exact .inl (by decide)

theorem marked_read (h : m.Marked) (hsize : headerBytes ≤ m.size) (limit : Nat) :
    (r.read m limit).2.Marked := by
  unfold read
  refine marked_enter h hsize (by decide) ?_
  dsimp only
  split
  · exact keepsMarks_refl m
  · dsimp only
    exact keepsMarks_advance ..

theorem marked_readInto (h : m.Marked) (hsize : headerBytes ≤ m.size) (want : Nat) :
    (r.readInto m want).2.Marked := by
  unfold readInto
  refine marked_enter h hsize (by decide) ?_
  dsimp only
  exact keepsMarks_gather ..

theorem marked_flush (h : m.Marked) (hsize : headerBytes ≤ m.size) : (r.flush m).2.Marked := by
  unfold flush
  refine marked_enter h hsize (by decide) ?_
  dsimp only
  exact ((keepsMarks_refl m).set64 (.inl (by decide))).set64 (.inl (by decide))

theorem marked_release (h : m.Marked) : (r.release m).2.Marked := by
  unfold release
  split
  · exact h
  · refine h.keeps ⟨fun j hlow _ => byte_set32_of_outside (.inr ?_)⟩
    exact hlow

end RingMapping

namespace Ring
variable {r : Ring} {g : RingGeometry}

theorem marked_step (h : r.memory.Marked) (hfits : r.Fits g) {t : SharedStep} (ht : t.Fair) :
    (r.step t).memory.Marked := by
  have hsize : headerBytes ≤ r.memory.size := by
    rw [hfits.size]
    exact Nat.le_add_right _ _
  cases ht with
  | call c =>
      cases c with
      | write frame timestamp => exact RingMapping.marked_write h hsize frame timestamp
      | read limit => exact RingMapping.marked_read h hsize limit
      | readInto want => exact RingMapping.marked_readInto h hsize want
      | flush => exact RingMapping.marked_flush h hsize
      | release => exact RingMapping.marked_release h
  | mark hat hw => exact h.set32 hsize hat hw
  | elsewhere hout => exact h.keeps ((keepsMarks_refl _).blit hout)

theorem marked_run (h : r.memory.Marked) (hfits : r.Fits g) (hg : g.check = .ok ())
    {steps : List SharedStep} (hsteps : ∀ t ∈ steps, t.Fair) : (r.run steps).memory.Marked := by
  induction steps generalizing r with
  | nil => exact h
  | cons t later ih =>
      rw [List.forall_mem_cons] at hsteps
      exact ih (marked_step h hfits hsteps.1) (hfits.step hg t) hsteps.2

end Ring
end Patchbay
