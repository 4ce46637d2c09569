import Patchbay.Proofs.Ring.SharedRuns

/-!
# What a ring touches

The operations of a mapping once more, written so that they list every access to the memory: the
words they load and store, and the bytes of a span that they copy out or in. Each is equal to the
operation itself, list aside.
-/
namespace Patchbay

/-- One access to the memory of a ring. Cursors say which span is copied from or to. -/
inductive RingAccess where
  | load (start width : Nat)
  | store (start width : Nat)
  | copyOut (cursor : UInt64) (start length : Nat)
  | copyIn (cursor : UInt64) (start length : Nat)
deriving DecidableEq, Repr

/-- A computation on memory that lists its accesses. -/
structure Traced (α : Type) where
  run : Memory → (α × Memory) × List RingAccess

namespace Traced

variable {α β : Type}

instance : Monad Traced where
  pure a := ⟨fun m => ((a, m), [])⟩
  bind x f := ⟨fun m =>
    let ((a, m₁), first) := x.run m
    let (result, rest) := (f a).run m₁
    (result, first ++ rest)⟩

def load32 (i : Nat) : Traced UInt32 :=
  ⟨fun m => ((m.get32 i, m), [.load i 4])⟩

def load64 (i : Nat) : Traced UInt64 :=
  ⟨fun m => ((m.get64 i, m), [.load i 8])⟩

def store32 (i : Nat) (w : UInt32) : Traced Unit :=
  ⟨fun m => (((), m.set32 i w), [.store i 4])⟩

def store64 (i : Nat) (w : UInt64) : Traced Unit :=
  ⟨fun m => (((), m.set64 i w), [.store i 8])⟩

/-- Copies `n` bytes from `start` on, which are those of the span of `cursor`. -/
def copyOut (cursor : UInt64) (start n : Nat) : Traced (List UInt8) :=
  ⟨fun m => ((m.slice start n, m), [.copyOut cursor start n])⟩

/-- Copies bytes to `start`, which is in the span of `cursor`. -/
def copyIn (cursor : UInt64) (start : Nat) (bytes : List UInt8) : Traced Unit :=
  ⟨fun m => (((), m.blit start bytes), [.copyIn cursor start bytes.length])⟩

/-- Takes the flag at `busyAt`, and tells whether it was free. One that was free is written twice
and is back at zero in the end. -/
def takeFlag (busyAt : Nat) : Traced Bool :=
  ⟨fun m =>
    if m.get32 busyAt ≠ 0 then ((false, m.set32 busyAt 1), [.load busyAt 4, .store busyAt 4])
    else ((true, m), [.load busyAt 4, .store busyAt 4, .store busyAt 4])⟩

section
variable (m : Memory) (i start n : Nat) (cursor : UInt64)

@[simp]
theorem run_pure (a : α) : (pure a : Traced α).run m = ((a, m), []) := rfl

@[simp]
theorem run_bind (x : Traced α) (f : α → Traced β) :
    (x >>= f).run m =
      (((f (x.run m).1.1).run (x.run m).1.2).1,
        (x.run m).2 ++ ((f (x.run m).1.1).run (x.run m).1.2).2) := rfl

@[simp]
theorem run_load32 : (load32 i).run m = ((m.get32 i, m), [.load i 4]) := rfl

@[simp]
theorem run_load64 : (load64 i).run m = ((m.get64 i, m), [.load i 8]) := rfl

@[simp]
theorem run_store32 (w : UInt32) : (store32 i w).run m = (((), m.set32 i w), [.store i 4]) := rfl

@[simp]
theorem run_store64 (w : UInt64) : (store64 i w).run m = (((), m.set64 i w), [.store i 8]) := rfl

@[simp]
theorem run_copyOut :
    (copyOut cursor start n).run m = ((m.slice start n, m), [.copyOut cursor start n]) := rfl

@[simp]
theorem run_copyIn (bytes : List UInt8) :
    (copyIn cursor start bytes).run m =
      (((), m.blit start bytes), [.copyIn cursor start bytes.length]) := rfl

theorem run_ite (p : Prop) [Decidable p] (x y : Traced α) :
    (if p then x else y).run m = if p then x.run m else y.run m := by
  split <;> rfl

end

end Traced

namespace RingMapping
open RingGeometry Traced

variable {α : Type}

def enterTraced (r : RingMapping) (busyAt : Nat) (op : String)
    (body : Traced (Except StreamError α)) : Traced (Except StreamError α) := do
  if r.isClosed then return .error .released
  if (← load32 releasedAt) ≠ 0 then return .error .released
  if ← takeFlag busyAt then body else return .error (.illegalState op "concurrent access")

def writeTraced (r : RingMapping) (frame : List UInt8) (timestamp : UInt64) :
    Traced (Except StreamError Unit) :=
  let g := r.geometry
  if frame.length > g.spanSize.toNat then
    pure (.error (.invalidParam
      s!"frame of {frame.length} bytes exceeds span size {g.spanSize}"))
  else
    r.enterTraced producerBusyAt "write" do
      let w ← load64 writeAt
      if w - (← load64 readAt) ≥ g.spanCount.toUInt64 then return .error .bufferFull
      copyIn w (g.dataAt w) frame
      store64 (g.metaAt w) (UInt64.ofNat frame.length)
      store64 (g.metaAt w + 8) timestamp
      store64 writeAt (w + 1)
      return .ok ()

def extentTraced (g : RingGeometry) (cursor : UInt64) : Traced (Nat × Nat) := do
  let valid := min (← load64 (g.metaAt cursor)).toNat g.spanSize.toNat
  return (valid, min (← load64 readOffsetAt).toNat valid)

def advanceTraced (cursor : UInt64) (consumed valid : Nat) : Traced Unit :=
  if consumed ≥ valid then do
    store64 readOffsetAt 0
    store64 readAt (cursor + 1)
  else store64 readOffsetAt (UInt64.ofNat consumed)

def readTraced (r : RingMapping) (limit : Nat) : Traced (Except StreamError SpanRead) :=
  let g := r.geometry
  r.enterTraced consumerBusyAt "read" do
    let cursor ← load64 readAt
    if cursor = (← load64 writeAt) then return .error .bufferEmpty
    let (valid, offset) ← extentTraced g cursor
    let n := min limit (valid - offset)
    let data ← copyOut cursor (g.dataAt cursor + offset) n
    let time ← load64 (g.metaAt cursor + 8)
    advanceTraced cursor (offset + n) valid
    return .ok ⟨data, time⟩

/-- Here the recursion is on the number of spans between the cursors. -/
def gatherTraced (g : RingGeometry) :
    Nat → UInt64 → Nat → Traced (List UInt8 × Option UInt64)
  | 0, _, _ => pure ([], none)
  | spans + 1, cursor, want =>
    if want = 0 then pure ([], none)
    else do
      let e ← extentTraced g cursor
      let n := min want (e.1 - e.2)
      let chunk ← copyOut cursor (g.dataAt cursor + e.2) n
      let time ← load64 (g.metaAt cursor + 8)
      advanceTraced cursor (e.2 + n) e.1
      if e.2 + n ≥ e.1 then
        let next ← gatherTraced g spans (cursor + 1) (want - n)
        return (chunk ++ next.1, some time)
      else return (chunk, some time)

def readIntoTraced (r : RingMapping) (want : Nat) : Traced (Except StreamError FilledRead) :=
  r.enterTraced consumerBusyAt "read" do
    let write ← load64 writeAt
    let read ← load64 readAt
    let (got, time) ← gatherTraced r.geometry (write.toNat - read.toNat) read want
    return .ok ⟨got ++ List.replicate (want - got.length) 0, got.length, got.length < want, time⟩

def flushTraced (r : RingMapping) : Traced (Except StreamError Unit) :=
  r.enterTraced consumerBusyAt "flush" do
    let write ← load64 writeAt
    store64 readOffsetAt 0
    store64 readAt write
    return .ok ()

def releaseTraced (r : RingMapping) : Traced RingMapping :=
  if r.isClosed then pure r
  else do
    store32 releasedAt 1
    return { r with isClosed := true }

/-- What a call answers, and the mapping after it. -/
def callTraced (r : RingMapping) : RingCall → Traced (RingAnswer × RingMapping)
  | .write frame t => do return (.written (← r.writeTraced frame t), r)
  | .read limit => do return (.read (← r.readTraced limit), r)
  | .readInto want => do return (.filled (← r.readIntoTraced want), r)
  | .flush => do return (.flushed (← r.flushTraced), r)
  | .release => do return (.released, ← r.releaseTraced)

/-- What a call answers, and the mapping and the memory after it. -/
def call (r : RingMapping) (m : Memory) : RingCall → (RingAnswer × RingMapping) × Memory
  | .write frame t =>
    let (a, m) := r.write m frame t
    ((.written a, r), m)
  | .read limit =>
    let (a, m) := r.read m limit
    ((.read a, r), m)
  | .readInto want =>
    let (a, m) := r.readInto m want
    ((.filled a, r), m)
  | .flush =>
    let (a, m) := r.flush m
    ((.flushed a, r), m)
  | .release =>
    let (r, m) := r.release m
    ((.released, r), m)

variable {r : RingMapping} {g : RingGeometry} {m : Memory} {busyAt : Nat} {op : String}

theorem run_enterTraced {body : Traced (Except StreamError α)}
    {body' : Unit → Except StreamError α × Memory} (h : (body.run m).1 = body' ()) :
    ((r.enterTraced busyAt op body).run m).1 = r.enter m busyAt op body' := by
  unfold enterTraced enter isReleased takeFlag
  by_cases hclosed : r.isClosed
  · simp [hclosed]
  · by_cases hreleased : m.get32 releasedAt = 0
    · by_cases hbusy : m.get32 busyAt = 0
      · simp [hclosed, hreleased, hbusy, h]
      · simp [hclosed, hreleased, hbusy]
    · simp [hclosed, hreleased]

theorem run_writeTraced (r : RingMapping) (m : Memory) (frame : List UInt8) (timestamp : UInt64) :
    ((r.writeTraced frame timestamp).run m).1 = r.write m frame timestamp := by
  unfold writeTraced write
  dsimp only
  rw [run_ite]
  split
  · rfl
  · apply run_enterTraced
    by_cases hfull : m.get64 writeAt - m.get64 readAt ≥ r.geometry.spanCount.toUInt64
    · simp [hfull]
    · simp [hfull]

@[simp]
theorem run_extentTraced (g : RingGeometry) (m : Memory) (cursor : UInt64) :
    (extentTraced g cursor).run m =
      ((extent g m cursor, m), [.load (g.metaAt cursor) 8, .load readOffsetAt 8]) := by
  simp [extentTraced, extent]

theorem run_advanceTraced (m : Memory) (cursor : UInt64) (consumed valid : Nat) :
    ((advanceTraced cursor consumed valid).run m).1 = ((), advance m cursor consumed valid) := by
  unfold advanceTraced advance
  by_cases hend : consumed ≥ valid
  · simp [hend]
  · simp [hend]

theorem run_readTraced (r : RingMapping) (m : Memory) (limit : Nat) :
    ((r.readTraced limit).run m).1 = r.read m limit := by
  apply run_enterTraced
  by_cases hempty : m.get64 readAt = m.get64 writeAt
  · simp [hempty]
  · simp [hempty, run_advanceTraced]

theorem run_gatherTraced (g : RingGeometry) (write cursor : UInt64) (want : Nat) (m : Memory) :
    ((gatherTraced g (write.toNat - cursor.toNat) cursor want).run m).1 =
      let (got, time, m') := gather g write cursor want m
      ((got, time), m') := by
  generalize hspans : write.toNat - cursor.toNat = spans
  induction spans generalizing cursor want m with
  | zero =>
      have hlt : ¬ cursor < write := by
        rw [UInt64.lt_iff_toNat_lt]
        omega
      rw [gather, dif_neg fun h => hlt h.2]
      rfl
  | succ spans ih =>
      have hlt : cursor < write := by
        rw [UInt64.lt_iff_toNat_lt]
        omega
      rw [gatherTraced, gather]
      by_cases hwant : want = 0
      · simp [hwant]
      · have hnext : write.toNat - (cursor + 1).toNat = spans := by
          have hw := write.toNat_lt
          rw [UInt64.toNat_add, UInt64.toNat_one]
          omega
        rw [if_neg hwant, dif_pos ⟨hwant, hlt⟩]
        dsimp only
        simp only [run_bind, run_extentTraced, run_copyOut, run_load64, run_advanceTraced]
        split
        · simp [ih _ _ _ hnext]
        · simp

theorem run_readIntoTraced (r : RingMapping) (m : Memory) (want : Nat) :
    ((r.readIntoTraced want).run m).1 = r.readInto m want := by
  apply run_enterTraced
  simp [run_gatherTraced]

theorem run_flushTraced (r : RingMapping) (m : Memory) :
    (r.flushTraced.run m).1 = r.flush m := by
  apply run_enterTraced
  simp

theorem run_releaseTraced (r : RingMapping) (m : Memory) :
    (r.releaseTraced.run m).1 = r.release m := by
  unfold releaseTraced release
  rw [run_ite]
  split <;> rfl

theorem run_callTraced (r : RingMapping) (m : Memory) (c : RingCall) :
    ((r.callTraced c).run m).1 = r.call m c := by
  cases c with
  | write frame t => simp [callTraced, call, run_writeTraced]
  | read limit => simp [callTraced, call, run_readTraced]
  | readInto want => simp [callTraced, call, run_readIntoTraced]
  | flush => simp [callTraced, call, run_flushTraced]
  | release => simp [callTraced, call, run_releaseTraced]

end RingMapping
end Patchbay
