import Patchbay.Mix.Recorder
import Patchbay.Proofs.Mix.RouteCaches
import Patchbay.Proofs.Ring.Additions
import Patchbay.Proofs.Session.Rounds

/-!
# What becomes of a captured span

One span goes to all running sessions of a format that are bound to the device, and each of them
has a ring of its own, which its client may have left full. In a cycle such a session gets the
span or counts an overrun, the recorder counts the spans lost, and all other sessions are left
alone. So is a session whose spans are too short for what was captured, and nobody counts that.
-/
namespace Patchbay

/-- What happens to a recorder and the sessions that it captures for. -/
inductive RecorderStep (σ : Type) where
  | sessions (t : SharedRegistryStep)
  /-- There is something else to capture. -/
  | plug (input : σ)
  | cycle (timestamp : UInt64)

structure RecorderWatch (σ : Type) where
  recorder : Recorder σ
  registry : Registry

namespace RecorderWatch
variable {σ : Type} [Recording σ]

def step (w : RecorderWatch σ) : RecorderStep σ → RecorderWatch σ
  | .sessions t => { w with registry := w.registry.sharedStep t }
  | .plug input => { w with recorder := { w.recorder with input := input } }
  | .cycle timestamp =>
    let (_, recorder, registry) := w.recorder.cycle w.registry timestamp
    ⟨recorder, registry⟩

def run (w : RecorderWatch σ) (steps : List (RecorderStep σ)) : RecorderWatch σ :=
  steps.foldl step w

end RecorderWatch

namespace Session

/-- The session records from the device in the format. -/
def records (s : Session) (device : Device) (info : StreamFormat) : Bool :=
  s.intent.role = .input && s.config.info = info && s.device.sameEndpoint device && s.isRunning

/-- The session has one span more. -/
structure Gains (s s' : Session) (f : QueuedFrame) : Prop where
  ring : s.ring.Gains s'.ring f
  rest : s' = { s with
    ring := s'.ring
    position := { s.position with
      framesWritten := s.position.framesWritten + f.bytes.length / s.bytesPerFrame } }

/-- The session counts one overrun more. -/
def overrun (s : Session) : Session :=
  { s with position := { s.position with overruns := s.position.overruns + 1 } }

/-- A frame that is written finds the ring full. -/
def loses (s : Session) (frame : List UInt8) (t : UInt64) : Bool :=
  match (s.write frame t).1 with
  | .error .bufferFull => true
  | _ => false

end Session

/-- From `w` to `w'` the span `f` was captured and nothing else happened. A session that may take
it does so or counts it, and the recorder counts what the sessions count. -/
structure RecorderWatch.Delivers {σ : Type} (device : Device) (info : StreamFormat)
    (f : QueuedFrame) (w w' : RecorderWatch σ) : Prop where
  reached : ∀ id s, w.registry.any? id = some s → s.records device info →
    s.ring.Accepts f.bytes.length →
      ∃ s', w'.registry.any? id = some s' ∧
        if s.ring.hasRoom then s.Gains s' f else s' = s.overrun
  counted : w'.recorder.dropped = w.recorder.dropped + (w.registry.all.filter fun s =>
    (w'.registry.any? s.id).any (·.position.overruns ≠ s.position.overruns)).length
  untouched : ∀ id, (∀ s, w.registry.any? id = some s → ¬ s.records device info) →
    w'.registry.any? id = w.registry.any? id
  rest : w'.registry = { w.registry with sessions := w'.registry.sessions }

namespace Session

variable {s : Session} {frame : List UInt8} {t : UInt64}

theorem overruns_write (s : Session) (frame : List UInt8) (t : UInt64) :
    (s.write frame t).2.position.overruns =
      s.position.overruns + (s.loses frame t).toNat := by
  unfold loses write
  split
  · rfl
  · split
    · rfl
    · rfl
    · rename_i e ring hother hwrite
      cases e <;> first | rfl | exact absurd rfl hother

theorem write_of_hasRoom (hlive : ¬ s.isTerminal) (h : s.ring.Accepts frame.length)
    (hroom : s.ring.hasRoom) :
    s.write frame t = (.ok (), { s with
      ring := s.ring.fill frame t
      position := { s.position with
        framesWritten := s.position.framesWritten + frame.length / s.bytesPerFrame } }) := by
  unfold write
  rw [if_neg hlive, h.apply_write, if_pos hroom]

theorem write_of_full (hlive : ¬ s.isTerminal) (h : s.ring.Accepts frame.length)
    (hfull : ¬ s.ring.hasRoom) : s.write frame t = (.error .bufferFull, s.overrun) := by
  unfold write
  rw [if_neg hlive, h.apply_write, if_neg hfull]
  rfl

theorem write_of_short (hlive : ¬ s.isTerminal)
    (h : s.ring.mapping.geometry.spanSize.toNat < frame.length) : (s.write frame t).2 = s := by
  unfold write Ring.apply RingMapping.write
  rw [if_neg hlive]
  simp [h]

/-- A session that may take the span gets it or counts an overrun. -/
theorem gains_or_overrun_write (hlive : ¬ s.isTerminal) (h : s.ring.Accepts frame.length)
    (hg : s.ring.mapping.geometry.check = .ok ()) (hfits : s.ring.Fits s.ring.mapping.geometry) :
    if s.ring.hasRoom then s.Gains (s.write frame t).2 ⟨frame, t⟩
    else (s.write frame t).2 = s.overrun := by
  by_cases hroom : s.ring.hasRoom
  · rw [if_pos hroom, write_of_hasRoom hlive h hroom]
    exact ⟨Ring.gains_fill hg hfits.size h.fits hroom, rfl⟩
  · rw [if_neg hroom, write_of_full hlive h hroom]

theorem not_isTerminal_of_records {device : Device} {info : StreamFormat}
    (h : s.records device info) : ¬ s.isTerminal :=
  not_isTerminal_of_isRunning (Bool.and_eq_true_iff.mp h).2

end Session

namespace Recorder

variable {σ : Type} {reg : Registry} {s : Session} {data : List UInt8} {t : UInt64}
variable {sessions : List Session} {n : Nat}

theorem queue_registry (data : List UInt8) (t : UInt64) (p : Nat × Registry) (s : Session) :
    (queue data t p s).2 = p.2.perform s.id (.write data t) := by
  unfold queue
  split <;>
    · rename_i h
      exact congrArg Prod.snd h.symm

theorem queue_eq {p : Nat × Registry} (hs : p.2.any? s.id = some s) :
    queue data t p s =
      (p.1 + (s.loses data t).toNat, p.2.perform s.id (.write data t)) := by
  refine Prod.ext ?_ (queue_registry data t p s)
  unfold queue Registry.apply Session.loses
  rw [hs]
  dsimp only
  generalize s.write data t = out
  obtain ⟨answer, s'⟩ := out
  cases answer with
  | ok u => rfl
  | error e => cases e <;> rfl

/-- The sessions are written to in a round, and those are counted that lose the span. -/
theorem foldl_queue (h : reg.Finds sessions) (data : List UInt8) (t : UInt64) (n : Nat) :
    sessions.foldl (queue data t) (n, reg) =
      (n + sessions.countP (·.loses data t), reg.performEach (.write data t) sessions) := by
  induction sessions generalizing n reg with
  | nil => rfl
  | cons s rest ih =>
      rw [List.foldl_cons, queue_eq (h.found s List.mem_cons_self), ih (h.tail (.write data t)),
        List.countP_cons]
      refine Prod.ext ?_ rfl
      cases s.loses data t <;> simp [Nat.add_assoc, Nat.add_comm]

theorem any?_foldl_queue (h : reg.Shared) {device : Device} {info : StreamFormat}
    (hsessions : sessions = reg.all.filter (·.records device info)) (id : Nat) :
    (sessions.foldl (queue data t) (0, reg)).2.any? id = (reg.any? id).map fun s =>
      if s.records device info then (s.write data t).2 else s := by
  have hfinds : reg.Finds sessions := hsessions ▸ h.toAscending.finds_filter _
  rw [foldl_queue hfinds, hsessions]
  exact h.any?_performEach_filter (fun s => s.not_isTerminal_of_records) (.write data t) id

theorem delivers_foldl {w w' : RecorderWatch σ} (h : w.registry.Shared) {device : Device}
    {info : StreamFormat} (hsessions : sessions = w.registry.all.filter (·.records device info))
    (hdropped : w'.recorder.dropped =
      w.recorder.dropped + (sessions.foldl (queue data t) (0, w.registry)).1)
    (hregistry : w'.registry = (sessions.foldl (queue data t) (0, w.registry)).2) :
    w.Delivers device info ⟨data, t⟩ w' := by
  have hlive : ∀ s : Session, s.records device info → ¬ s.isTerminal :=
    fun s => s.not_isTerminal_of_records
  have hany : ∀ id, w'.registry.any? id = (w.registry.any? id).map fun s =>
      if s.records device info then (s.write data t).2 else s :=
    fun id => hregistry ▸ any?_foldl_queue h hsessions id
  have hfinds : w.registry.Finds sessions := hsessions ▸ h.toAscending.finds_filter _
  rw [foldl_queue hfinds] at hdropped hregistry
  constructor
  case reached =>
    intro id s hs hrecords haccepts
    refine ⟨(s.write data t).2, ?_, Session.gains_or_overrun_write (hlive s hrecords) haccepts
      (h.geometry id s hs) (h.fits id s hs)⟩
    rw [hany, hs, Option.map_some, if_pos hrecords]
  case counted =>
    have hlost : sessions.countP (·.loses data t) =
        (w.registry.all.filter fun s => s.loses data t && s.records device info).length := by
      rw [hsessions, List.countP_filter, List.countP_eq_length_filter]
    rw [hdropped, Nat.zero_add, hlost]
    refine congrArg (w.recorder.dropped + List.length ·) (List.filter_congr fun s hs => ?_)
    have hs := h.numbered.any?_of_mem_all hs
    rw [hany, hs, Option.map_some, Option.any_some]
    by_cases hrecords : s.records device info
    · rw [if_pos hrecords, Session.overruns_write, hrecords]
      cases s.loses data t <;> simp
    · simp [hrecords]
  case untouched =>
    intro id hnone
    rw [hany]
    cases hs : w.registry.any? id with
    | none => rfl
    | some s => rw [Option.map_some, if_neg (hnone s hs)]
  case rest =>
    rw [hregistry]
    exact w.registry.performEach_rest _ fun _ => rfl

variable [Recording σ] {r : Recorder σ}

theorem cycle_routes (r : Recorder σ) (reg : Registry) (t : UInt64) :
    (r.cycle reg t).2.1.routes = (r.routes.refresh reg).2 := by
  unfold cycle
  dsimp only
  split
  · rfl
  · split <;> rfl

theorem cycle_registry (r : Recorder σ) (reg : Registry) (t : UInt64) :
    ∃ (sessions : List Session) (data : List UInt8),
      (r.cycle reg t).2.2 = (sessions.foldl (queue data t) (0, reg)).2 := by
  unfold cycle
  dsimp only
  split
  · exact ⟨[], [], rfl⟩
  · split
    · exact ⟨[], [], rfl⟩
    · exact ⟨_, _, rfl⟩

/-- What a cycle does when the input gives something, also when no session is there to record. -/
theorem cycle_of_capture (reg : Registry) (t : UInt64) {claimed : Nat} {span : List UInt8}
    {input : σ}
    (hcapture : Recording.capture r.input r.span = (.ok (claimed, span), input)) :
    let kept := ((r.routes.refresh reg).2.running reg).foldl
      (queue (span.take (min claimed span.length)) t) (0, reg)
    (r.cycle reg t).2.1.dropped = r.dropped + kept.1 ∧ (r.cycle reg t).2.2 = kept.2 := by
  intro kept
  unfold cycle
  dsimp only
  split
  · rename_i hempty
    rw [List.isEmpty_iff] at hempty
    rw [show kept = (0, reg) by unfold kept; rw [hempty]; rfl]
    exact ⟨rfl, rfl⟩
  · rw [hcapture]
    exact ⟨rfl, rfl⟩

end Recorder

namespace RecorderWatch

variable {σ : Type} {device : Device} {info : StreamFormat} {w : RecorderWatch σ}

/-- What every step preserves. -/
structure InStep (device : Device) (info : StreamFormat) (w : RecorderWatch σ) : Prop where
  registry : w.registry.Shared
  cache : w.recorder.routes.Follows w.registry
  routes : w.recorder.routes.device = device ∧ w.recorder.routes.role = .input ∧
    w.recorder.routes.info = info

theorem inStep_of_create {host : Host} {home : Option Session.RingHome} {files : Directory}
    {spanFrames : UInt32} {input : σ} {recorder : Recorder σ}
    (h : Recorder.create device info spanFrames input = .ok recorder) :
    InStep device info
      { recorder := recorder, registry := { host := host, home := home, files := files } } := by
  unfold Recorder.create at h
  dsimp only at h
  split at h
  · cases h
  · cases h
    exact ⟨Registry.shared_empty, RouteCache.follows_new device .input info _, rfl, rfl, rfl⟩

theorem InStep.running (h : w.InStep device info) :
    (w.recorder.routes.refresh w.registry).2.running w.registry =
      w.registry.all.filter (·.records device info) := by
  obtain ⟨hdevice, hrole, hinfo⟩ := h.routes
  rw [h.cache.running_refresh h.registry.toAscending]
  refine List.filter_congr fun s _ => ?_
  rw [RouteCache.suits, hdevice, hrole, hinfo]
  rfl

theorem follows_sharedStep {c : RouteCache} {r : Registry} (h : c.Follows r) (hr : r.Shared)
    (t : SharedRegistryStep) : c.Follows (r.sharedStep t) :=
  h.marks hr.toAscending (hr.step t).toAscending (Registry.sharedStep_marks hr.numbered t)

theorem foldl_queue_inStep {c : RouteCache} {r : Registry} (hr : r.Shared) (h : c.Follows r)
    (sessions : List Session) (data : List UInt8) (t : UInt64) (n : Nat) :
    (sessions.foldl (Recorder.queue data t) (n, r)).2.Shared ∧
      c.Follows (sessions.foldl (Recorder.queue data t) (n, r)).2 := by
  induction sessions generalizing n r with
  | nil => exact ⟨hr, h⟩
  | cons s rest ih =>
      rw [List.foldl_cons]
      have hqueue := Recorder.queue_registry data t (n, r) s
      generalize Recorder.queue data t (n, r) s = p at hqueue
      obtain ⟨n', r'⟩ := p
      dsimp only at hqueue
      subst hqueue
      exact ih (hr.step (.call s.id (.write data t)))
        (follows_sharedStep h hr (.call s.id (.write data t))) n'

variable [Recording σ]

theorem InStep.step (h : w.InStep device info) (t : RecorderStep σ) :
    (w.step t).InStep device info := by
  cases t with
  | sessions t =>
      exact ⟨h.registry.step t, follows_sharedStep h.cache h.registry t, h.routes⟩
  | plug input => exact ⟨h.registry, h.cache, h.routes⟩
  | cycle timestamp =>
      have hcache := h.cache.refresh h.registry.toAscending
      rw [← w.recorder.cycle_routes w.registry timestamp] at hcache
      obtain ⟨sessions, data, hcycle⟩ := w.recorder.cycle_registry w.registry timestamp
      obtain ⟨hshared, hfollows⟩ := foldl_queue_inStep h.registry hcache sessions data timestamp 0
      rw [← hcycle] at hshared hfollows
      refine ⟨hshared, hfollows, ?_⟩
      have hroutes : (w.step (.cycle timestamp)).recorder.routes =
          (w.recorder.routes.refresh w.registry).2 := w.recorder.cycle_routes w.registry timestamp
      rw [hroutes]
      exact h.routes

theorem InStep.run (h : w.InStep device info) (steps : List (RecorderStep σ)) :
    (w.run steps).InStep device info := by
  induction steps generalizing w with
  | nil => exact h
  | cons t later ih => exact ih (h.step t)

end RecorderWatch

/-- Whatever happened to the sessions, to their rings and to the recorder before: when a cycle
captures a span, each session that runs, is bound to the device and has the format of the recorder
gets it as one new span or, with a full ring, counts an overrun. The recorder counts as lost what
the sessions counted, and no other session is touched. -/
theorem captured_span_kept_or_counted {σ : Type} [Recording σ] (host : Host)
    (home : Option Session.RingHome) (files : Directory) {device : Device} {info : StreamFormat}
    {spanFrames : UInt32} {input : σ} {recorder : Recorder σ}
    (hmade : Recorder.create device info spanFrames input = .ok recorder)
    (steps : List (RecorderStep σ)) (timestamp : UInt64) {w : RecorderWatch σ}
    (hrun : RecorderWatch.run { recorder := recorder, registry :=
      { host := host, home := home, files := files } } steps = w)
    {claimed : Nat} {span : List UInt8} {left : σ}
    (hcapture : Recording.capture w.recorder.input w.recorder.span = (.ok (claimed, span), left)) :
    w.Delivers device info ⟨span.take (min claimed span.length), timestamp⟩
      (w.step (.cycle timestamp)) := by
  have hw : w.InStep device info := hrun ▸ (RecorderWatch.inStep_of_create hmade).run steps
  obtain ⟨hdropped, hregistry⟩ :=
    Recorder.cycle_of_capture w.registry timestamp hcapture
  exact Recorder.delivers_foldl hw.registry hw.running hdropped hregistry

/-- A ring of one span, which the first of two cycles fills. -/
theorem second_span_counted_by_full_ring :
    let mic : Device := { type := .mic, role := .input, connectedAt := 1 }
    let mono : StreamFormat := { channels := 1 }
    let source : Adapter.FileSource := { data := [1, 2, 3, 4], isStarted := true }
    let left : Adapter.Jack := { source := .file { source with offset := 4 } }
    let steps : List (RecorderStep Adapter.Jack) :=
      [.sessions (.create ⟨.capture .mic, mono, 1000, 1, 1⟩), .sessions (.call 1 .resolve),
        .sessions (.call 1 (.bind mic)), .sessions (.call 1 .start), .cycle 5]
    ∃ recorder w, Recorder.create mic mono 1 { source := .file source } = .ok recorder ∧
      RecorderWatch.run { recorder := recorder, registry := {} } steps = w ∧
      Recording.capture w.recorder.input w.recorder.span = (.ok (2, [3, 4]), left) ∧
      w.Delivers mic mono ⟨[3, 4], 6⟩ (w.step (.cycle 6)) := by
  intro mic mono source left steps
  obtain ⟨recorder, hmade⟩ :
      ∃ recorder, Recorder.create mic mono 1 ({ source := .file source } : Adapter.Jack) =
        .ok recorder := ⟨_, rfl⟩
  have hcapture : ∀ w, RecorderWatch.run { recorder := recorder, registry := {} } steps = w →
      Recording.capture w.recorder.input w.recorder.span = (.ok (2, [3, 4]), left) := by
    rintro w rfl
    cases hmade
    decide +kernel +revert
  refine ⟨recorder, _, hmade, rfl, hcapture _ rfl, ?_⟩
  exact captured_span_kept_or_counted {} none ∅ hmade steps 6 rfl (hcapture _ rfl)

/-- A stereo session and one whose spans hold two frames run and are bound to the device. Of a mono
span of four frames they get nothing, and nobody counts it. -/
theorem stereo_and_short_spans_missed :
    let mic : Device := { type := .mic, role := .input, connectedAt := 1 }
    let mono : StreamFormat := { channels := 1 }
    let source : Adapter.FileSource := { data := [1, 2, 3, 4, 5, 6, 7, 8], isStarted := true }
    let opened (id : Nat) (config : StreamConfig) : List (RecorderStep Adapter.Jack) :=
      [.sessions (.create config), .sessions (.call id .resolve), .sessions (.call id (.bind mic)),
        .sessions (.call id .start)]
    ∃ recorder, Recorder.create mic mono 4 { source := .file source } = .ok recorder ∧
      let w := RecorderWatch.run { recorder := recorder, registry := {} }
        (opened 1 ⟨.capture .mic, {}, 1000, 16, 4⟩ ++ opened 2 ⟨.capture .mic, mono, 1000, 8, 2⟩)
      let after := w.recorder.cycle w.registry 7
      after.1 = .ok 8 ∧ after.2.1.dropped = 0 ∧ ∀ id ∈ [1, 2],
        ((w.registry.any? id).any fun s =>
          s.isRunning && s.intent.role = .input && s.device.sameEndpoint mic &&
            !s.ring.isReleased && s.ring.memory.get32 RingGeometry.producerBusyAt = 0) ∧
          (after.2.2.any? id).map (fun s => (RingMapping.cursors s.ring.memory, s.position)) =
            some ((0, 0), {}) := by
  refine ⟨_, rfl, ?_⟩
  decide +kernel

/-- A session whose spans are shorter than what is captured is left as it is. It gets nothing, and
counts no overrun. -/
theorem short_span_missed {σ : Type} [Recording σ] (host : Host)
    (home : Option Session.RingHome) (files : Directory) {device : Device} {info : StreamFormat}
    {spanFrames : UInt32} {input : σ} {recorder : Recorder σ}
    (hmade : Recorder.create device info spanFrames input = .ok recorder)
    (steps : List (RecorderStep σ)) (timestamp : UInt64) {w : RecorderWatch σ}
    (hrun : RecorderWatch.run { recorder := recorder, registry :=
      { host := host, home := home, files := files } } steps = w)
    {claimed : Nat} {span : List UInt8} {left : σ}
    (hcapture : Recording.capture w.recorder.input w.recorder.span = (.ok (claimed, span), left))
    {id : Nat} {s : Session} (hs : w.registry.any? id = some s)
    (hshort : s.ring.mapping.geometry.spanSize.toNat < min claimed span.length) :
    (w.step (.cycle timestamp)).registry.any? id = some s := by
  have hw : w.InStep device info := hrun ▸ (RecorderWatch.inStep_of_create hmade).run steps
  have hregistry : (w.step (.cycle timestamp)).registry = _ :=
    (Recorder.cycle_of_capture w.registry timestamp hcapture).2
  rw [hregistry, Recorder.any?_foldl_queue hw.registry hw.running, hs, Option.map_some]
  by_cases hrecords : s.records device info
  · rw [if_pos hrecords, Session.write_of_short (Session.not_isTerminal_of_records hrecords)
      (by rw [List.length_take]; omega)]
  · rw [if_neg hrecords]

end Patchbay
