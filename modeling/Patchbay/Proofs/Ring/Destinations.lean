import Patchbay.Session.Data

/-!
# Filling a destination in place

Chunk after chunk is copied into a destination, at a place that moves on. What stands there in the
end is what a read answers as a list, so nothing of what stood there before is left; a read that is
refused leaves the destination as it was.
-/
namespace Patchbay

namespace Destination

variable {d : Destination} {chunk next : List UInt8} {time later : Option UInt64}

@[simp]
theorem filled_put (d : Destination) (chunk : List UInt8) (time : Option UInt64) :
    (d.put chunk time).filled = d.filled + chunk.length := rfl

theorem length_put (h : d.filled + chunk.length ≤ d.bytes.length) :
    (d.put chunk time).bytes.length = d.bytes.length := by
  simp only [put, List.length_append, List.length_take, List.length_drop]
  omega

theorem put_nil (d : Destination) : d.put [] none = d := by
  simp [put]

theorem put_put (h : d.filled + chunk.length ≤ d.bytes.length) :
    (d.put chunk time).put next later = d.put (chunk ++ next) (time <|> later) := by
  have hfront : (d.bytes.take d.filled ++ chunk).length = d.filled + chunk.length := by
    simp only [List.length_append, List.length_take]
    omega
  have hdrop : (d.put chunk time).bytes.drop (d.filled + chunk.length + next.length) =
      d.bytes.drop (d.filled + chunk.length + next.length) := by
    rw [put, ← hfront, List.drop_append, List.drop_eq_nil_of_le (Nat.le_add_right ..), hfront,
      List.drop_drop, List.nil_append, Nat.add_sub_cancel_left]
  have hbytes : ((d.put chunk time).put next later).bytes =
      (d.put (chunk ++ next) (time <|> later)).bytes := by
    rw [put, filled_put, hdrop, put, put, List.take_left' hfront, List.length_append,
      List.append_assoc _ chunk, Nat.add_assoc]
  refine Destination.ext hbytes ?_ ?_
  · simp [put, Nat.add_assoc]
  · simp [put, Option.or_assoc]

@[simp]
theorem timestamp_put {bytes : List UInt8} : (put { bytes := bytes } chunk time).timestamp = time :=
  Option.none_or

/-- What was put into a destination from its start stands there, with silence behind it. -/
@[simp]
theorem silenced_put {bytes : List UInt8} :
    (put { bytes := bytes } chunk time).silenced =
      chunk ++ List.replicate (bytes.length - chunk.length) 0 := by
  simp [silenced, put]

end Destination

@[simp]
theorem FilledRead.bytesRead_outcome (r : FilledRead) : r.outcome.bytesRead = r.bytesRead := rfl

namespace RingMapping
open RingGeometry

variable {g : RingGeometry} {write cursor : UInt64} {d : Destination} {m : Memory}

theorem length_gather_le (g : RingGeometry) (write cursor : UInt64) (want : Nat) (m : Memory) :
    (gather g write cursor want m).1.length ≤ want := by
  fun_induction gather g write cursor want m with
  | case1 cursor want m _ e n chunk time m' _ next ih =>
      have hchunk : chunk.length = n := m.length_slice _ _
      have hnext : next.1.length ≤ want - n := ih
      simp only [List.length_append]
      omega
  | case2 cursor want m _ e n chunk time m' _ =>
      have hchunk : chunk.length = n := m.length_slice _ _
      dsimp only
      omega
  | case3 => exact Nat.zero_le _

/-- What is poured is what is gathered for the room that is left. -/
theorem pour_eq (h : d.filled ≤ d.bytes.length) :
    pour g write cursor d m =
      let got := gather g write cursor (d.bytes.length - d.filled) m
      (d.put got.1 got.2.1, got.2.2) := by
  fun_induction pour g write cursor d m with
  | case1 cursor d m hgo e n d' m' hspent ih =>
      have hroom : d.bytes.length - d.filled ≠ 0 ∧ cursor < write := ⟨by omega, hgo.2⟩
      have hchunk : (m.slice (g.dataAt cursor + e.2) n).length = n := m.length_slice _ _
      have hfits : d.filled + n ≤ d.bytes.length := by omega
      have hlength : d'.bytes.length = d.bytes.length := Destination.length_put (by omega)
      have hfilled : d'.filled = d.filled + n := by simp [d']
      have hleft : d'.bytes.length - d'.filled = d.bytes.length - d.filled - n := by omega
      have hgather : gather g write cursor (d.bytes.length - d.filled) m =
          let next := gather g write (cursor + 1) (d.bytes.length - d.filled - n) m'
          (m.slice (g.dataAt cursor + e.2) n ++ next.1,
            some (m.get64 (g.metaAt cursor + 8)), next.2.2) := by
        rw [gather, dif_pos hroom]
        exact if_pos hspent
      rw [ih (by omega), hleft, hgather]
      dsimp only
      rw [Destination.put_put (by omega)]
      rfl
  | case2 cursor d m hgo e n d' m' hspent =>
      have hroom : d.bytes.length - d.filled ≠ 0 ∧ cursor < write := ⟨by omega, hgo.2⟩
      rw [gather, dif_pos hroom]
      dsimp only
      rw [if_neg hspent]
  | case3 cursor d m hgo =>
      have hroom : ¬ (d.bytes.length - d.filled ≠ 0 ∧ cursor < write) := by
        rintro ⟨hlt, hbehind⟩
        exact hgo ⟨by omega, hbehind⟩
      rw [gather, dif_neg hroom]
      dsimp only
      rw [Destination.put_nil]

/-- A read never finds more than it asks for, and has as many bytes as it asks for. -/
theorem length_readInto {r : RingMapping} {n : Nat} {got : FilledRead}
    (h : (r.readInto m n).1 = .ok got) : got.bytesRead ≤ n ∧ got.data.length = n := by
  unfold readInto enter at h
  split at h
  · cases h
  · split at h
    · cases h
    · have hle := length_gather_le r.geometry (m.get64 writeAt) (m.get64 readAt) n m
      cases h
      refine ⟨hle, ?_⟩
      simp only [List.length_append, List.length_replicate]
      omega

theorem readOnto_eq (r : RingMapping) (m : Memory) (dest : List UInt8) :
    r.readOnto m dest = match r.readInto m dest.length with
      | (.ok got, m') => (.ok got.outcome, got.data, m')
      | (.error e, m') => (.error e, dest, m') := by
  unfold readOnto readInto enter
  split
  · rfl
  · split
    · rfl
    · dsimp only
      rw [pour_eq (Nat.zero_le _)]
      generalize gather r.geometry (m.get64 RingGeometry.writeAt) (m.get64 RingGeometry.readAt)
        dest.length m = got
      simp [FilledRead.outcome]

end RingMapping

namespace Session

/-- A session that has not ended answers a read with what its ring does. -/
theorem fst_read {s : Session} (hlive : ¬ s.isTerminal) (n : Nat) :
    (s.read n).1 = (s.ring.mapping.readInto s.ring.memory n).1 := by
  unfold read Ring.apply
  rw [if_neg hlive]
  dsimp only
  generalize s.ring.mapping.readInto s.ring.memory n = answer
  obtain ⟨a, m⟩ := answer
  cases a <;> rfl

theorem length_read {s : Session} {n : Nat} {got : FilledRead} (h : (s.read n).1 = .ok got) :
    got.bytesRead ≤ n ∧ got.data.length = n := by
  by_cases hend : s.isTerminal
  · rw [read, if_pos hend] at h
    cases h
  · rw [fst_read hend] at h
    exact RingMapping.length_readInto h

/-- A read into a destination changes the session as a read of as many bytes. -/
theorem readOnto_eq (s : Session) (dest : List UInt8) :
    s.readOnto dest = match s.read dest.length with
      | (.ok got, s') => (.ok got.outcome, got.data, s')
      | (.error e, s') => (.error e, dest, s') := by
  unfold readOnto read Ring.apply
  split
  · rfl
  · rw [RingMapping.readOnto_eq]
    dsimp only
    generalize s.ring.mapping.readInto s.ring.memory dest.length = answer
    obtain ⟨answer, m⟩ := answer
    cases answer <;> rfl

end Session
end Patchbay
