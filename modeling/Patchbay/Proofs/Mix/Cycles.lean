import Patchbay.Proofs.Mix.Drains
import Patchbay.Proofs.Mix.Mixdowns
import Patchbay.Proofs.Session.Refusals

/-!
# What a cycle of a mixer does

A session may be muted, its ring may be empty, released or in use, and none of this may keep a
cycle from draining the others. Each running session that feeds the device is read once, whatever
its gain. What comes of it is one frame if any of them had data, and nothing otherwise.
-/
namespace Patchbay
open RingGeometry

/-- What happens to a mixer and to the sessions that it may play. -/
inductive MixerStep (σ : Type) where
  | sessions (t : SharedRegistryStep)
  /-- There is something else to play to. -/
  | plug (output : σ)
  | cycle

/-- Others go by the rules when they use a ring past its session. -/
def MixerStep.Fair {σ : Type} : MixerStep σ → Prop
  | .sessions t => t.Fair
  | _ => True

structure MixerWatch (σ : Type) where
  mixer : Mixer σ
  registry : Registry

namespace MixerWatch
variable {σ : Type} [Playback σ]

def step (w : MixerWatch σ) : MixerStep σ → MixerWatch σ
  | .sessions t => { w with registry := w.registry.sharedStep t }
  | .plug output => { w with mixer := { w.mixer with output := output } }
  | .cycle =>
    let (_, mixer, registry) := w.mixer.cycle w.registry
    ⟨mixer, registry⟩

def run (w : MixerWatch σ) (steps : List (MixerStep σ)) : MixerWatch σ :=
  steps.foldl step w

end MixerWatch

/-- The session plays to the device in the format. -/
def Session.feeds (s : Session) (device : Device) (info : StreamFormat) : Bool :=
  s.intent.role = .output && s.config.info = info && s.device.sameEndpoint device && s.isRunning

/-- A read gets as far as the cursors: the ring is not released and no other read is on its way. -/
structure Ring.Serves (r : Ring) : Prop where
  isOpen : ¬ r.isReleased
  isFree : r.memory.get32 consumerBusyAt = 0

/-- From `w` to `w'` every session that feeds the device was asked once for `n` bytes and nothing
else happened to any session. If one had data, the output was handed one frame of `n` bytes and
answered `a`. -/
structure MixerWatch.Mixes {σ : Type} [Playback σ] (device : Device) (info : StreamFormat)
    (n : Nat) (a : Except DeviceError Nat) (w w' : MixerWatch σ) : Prop where
  drained : ∀ id s, w.registry.any? id = some s → s.feeds device info → s.ring.Serves →
    (s.read n).1.isOk ∧ w'.registry.any? id = some (s.read n).2
  refused : ∀ id s, w.registry.any? id = some s → s.feeds device info → ¬ s.ring.Serves →
    ∃ ring, w'.registry.any? id = some { s with ring := ring } ∧ s.ring.Unmoved ring
  untouched : ∀ id, (∀ s, w.registry.any? id = some s → ¬ s.feeds device info) →
    w'.registry.any? id = w.registry.any? id
  rest : w'.registry = { w.registry with sessions := w'.registry.sessions }
  played : (∃ id s, w.registry.any? id = some s ∧ s.feeds device info ∧ 0 < s.taken n) →
    ∃ frame, frame.length = n ∧
      Playback.render w.mixer.output frame = (a, w'.mixer.output)
  silent : (∀ id s, w.registry.any? id = some s → s.feeds device info → s.taken n = 0) →
    a = .ok 0 ∧ w'.mixer.output = w.mixer.output

namespace Session

variable {s : Session} {device : Device} {info : StreamFormat}

theorem not_isTerminal_of_feeds (h : s.feeds device info) : ¬ s.isTerminal :=
  not_isTerminal_of_isRunning (Bool.and_eq_true_iff.mp h).2

/-- A session that goes on is refused a read by nothing but its ring. -/
theorem isOk_read_iff (hlive : ¬ s.isTerminal) (n : Nat) :
    (s.read n).1.isOk ↔ s.ring.Serves := by
  unfold read Ring.apply RingMapping.readInto RingMapping.enter
  rw [if_neg hlive]
  by_cases hreleased : s.ring.mapping.isReleased s.ring.memory
  · have hserves : ¬ s.ring.Serves := fun h => h.isOpen hreleased
    simp [hreleased, hserves, Except.isOk, Except.toBool]
  · by_cases hbusy : s.ring.memory.get32 consumerBusyAt = 0
    · have hserves : s.ring.Serves := ⟨hreleased, hbusy⟩
      simp [hreleased, hbusy, hserves, Except.isOk, Except.toBool]
    · have hserves : ¬ s.ring.Serves := fun h => hbusy h.isFree
      simp [hreleased, hbusy, hserves, Except.isOk, Except.toBool]

theorem unmoved_read (hm : s.ring.memory.Marked) (hlive : ¬ s.isTerminal) (h : ¬ s.ring.Serves)
    (n : Nat) : (s.read n).2 = { s with ring := (s.read n).2.ring } ∧
      s.ring.Unmoved (s.read n).2.ring := by
  have hfails := (isOk_read_iff hlive n).not.mpr h
  generalize hread : s.read n = answer at hfails ⊢
  obtain ⟨a, s'⟩ := answer
  cases a with
  | ok got => exact absurd rfl hfails
  | error e =>
      have hrefuses := refuses_read hm hread
      exact ⟨hrefuses.rest, hrefuses.ring⟩

end Session

/-- The sessions that the cache of a mixer finds are those that feed its device. -/
theorem RouteCache.Follows.running_feeds {c : RouteCache} {r : Registry} {device : Device}
    {info : StreamFormat} (h : c.Follows r)
    (hc : c.blank = { device := device, role := .output, info := info }) (hr : r.Ascending) :
    (c.refresh r).2.running r = r.all.filter (·.feeds device info) := by
  have hdevice : c.device = device := congrArg RouteCache.device hc
  have hrole : c.role = .output := congrArg RouteCache.role hc
  have hinfo : c.info = info := congrArg RouteCache.info hc
  rw [h.running_refresh hr]
  refine List.filter_congr fun s _ => ?_
  rw [RouteCache.suits, hdevice, hrole, hinfo]
  rfl

namespace MixerWatch

variable {σ : Type} {device : Device} {info : StreamFormat} {n : Nat} {w : MixerWatch σ}

/-- What every step preserves. -/
structure InStep (device : Device) (info : StreamFormat) (n : Nat) (w : MixerWatch σ) : Prop where
  tuned : Tuned [w.mixer.routes] w.registry
  routes : w.mixer.routes.blank = { device := device, role := .output, info := info }
  format : w.mixer.info = info
  spanBytes : w.mixer.spanBytes = n

theorem InStep.drains (h : w.InStep device info n) :
    w.mixer.drains w.registry = w.registry.all.filter (·.feeds device info) :=
  (h.tuned.follows _ List.mem_cons_self).running_feeds h.routes h.tuned.registry.toAscending

theorem inStep_create {host : Host} {home : Option Session.RingHome} {files : Directory}
    {spanFrames : UInt32} {output : σ} {mixer : Mixer σ}
    (hmade : Mixer.create device info spanFrames output = .ok mixer) :
    InStep device info mixer.spanBytes
      { mixer := mixer, registry := { host := host, home := home, files := files } } := by
  unfold Mixer.create at hmade
  split at hmade
  · cases hmade
  · cases hmade
    have hfollows : ∀ c ∈ [({ device := device, role := .output, info := info } : RouteCache)],
        c.Follows { host := host, home := home, files := files } := by
      intro c hc
      rw [List.mem_singleton.mp hc]
      exact RouteCache.follows_new device .output info _
    exact ⟨⟨Registry.shared_empty, fun _ _ hs => (Option.some_ne_none _ hs.symm).elim, hfollows⟩,
      rfl, rfl, rfl⟩

variable [Playback σ]

theorem InStep.cycle (h : w.InStep device info n) : (w.step .cycle).InStep device info n := by
  simp only [MixerWatch.step]
  rcases w.mixer.cycle_cases w.registry with hidle | ⟨b, a, output, hcycle⟩
  · rw [hidle]
    exact h
  · rw [hcycle]
    have htuned := h.tuned.refresh List.mem_cons_self 0
    exact ⟨Mixer.tuned_mixdown htuned b _ _, h.routes, h.format, h.spanBytes⟩

theorem InStep.step (h : w.InStep device info n) (t : MixerStep σ) :
    (w.step t).InStep device info n := by
  cases t with
  | sessions t => exact ⟨h.tuned.step t, h.routes, h.format, h.spanBytes⟩
  | plug output => exact ⟨h.tuned, h.routes, h.format, h.spanBytes⟩
  | cycle => exact h.cycle

theorem InStep.run (h : w.InStep device info n) (steps : List (MixerStep σ)) :
    (w.run steps).InStep device info n := by
  induction steps generalizing w with
  | nil => exact h
  | cons t later ih => exact ih (h.step t)

/-- A cycle makes a round through the sessions that feed the device, and hands over their frame. -/
theorem InStep.cycle_spec (h : w.InStep device info n) {b : Blend Single}
    (hblend : info.format.blend? = some b) :
    let sessions := w.registry.all.filter (·.feeds device info)
    (w.step .cycle).registry = w.registry.performEach (.read n) sessions ∧
      match Mixer.frame? b n sessions with
      | none => (w.mixer.cycle w.registry).1 = .ok 0 ∧
          (w.step .cycle).mixer.output = w.mixer.output
      | some frame => Playback.render w.mixer.output frame =
          ((w.mixer.cycle w.registry).1, (w.step .cycle).mixer.output) := by
  intro sessions
  have hdrains : (w.mixer.routes.refresh w.registry).2.running w.registry = sessions := h.drains
  have hfinds : w.registry.Finds sessions := h.tuned.registry.toAscending.finds_filter _
  have hcycle : w.mixer.cycle w.registry = w.mixer.cycleWith b w.registry := by
    unfold Mixer.cycle
    rw [h.format, hblend]
  rw [w.mixer.cycleWith_eq b hdrains hfinds, h.spanBytes] at hcycle
  simp only [MixerWatch.step, hcycle]
  cases Mixer.frame? b n sessions with
  | none => exact ⟨rfl, rfl, rfl⟩
  | some frame => exact ⟨rfl, rfl⟩

theorem InStep.any?_cycle (h : w.InStep device info n) {b : Blend Single}
    (hblend : info.format.blend? = some b) (id : Nat) :
    (w.step .cycle).registry.any? id =
      (w.registry.any? id).map fun s => if s.feeds device info then (s.read n).2 else s := by
  rw [(h.cycle_spec hblend).1]
  exact h.tuned.registry.any?_performEach_filter (fun s => s.not_isTerminal_of_feeds) (.read n) id

theorem InStep.marked_step (h : w.InStep device info n) {b : Blend Single}
    (hblend : info.format.blend? = some b) (hm : w.registry.Marked) {t : MixerStep σ}
    (ht : t.Fair) : (w.step t).registry.Marked := by
  cases t with
  | sessions t => exact hm.step h.tuned.registry ht
  | plug output => exact hm
  | cycle =>
      intro id s' hs'
      rw [h.any?_cycle hblend] at hs'
      obtain ⟨s, hs, rfl⟩ := Option.map_eq_some_iff.mp hs'
      split
      · obtain ⟨calls, hring⟩ := s.ring_perform (.read n)
        have hread : (s.read n).2.ring = s.ring.run (calls.map .call) := hring
        rw [hread]
        exact Ring.marked_run (hm id s hs) (h.tuned.registry.fits id s hs)
          (h.tuned.registry.geometry id s hs) (List.forall_mem_map.mpr fun c _ => .call c)
      · exact hm id s hs

theorem InStep.marked_run (h : w.InStep device info n) {b : Blend Single}
    (hblend : info.format.blend? = some b) (hm : w.registry.Marked) {steps : List (MixerStep σ)}
    (hsteps : ∀ t ∈ steps, t.Fair) : (w.run steps).registry.Marked := by
  induction steps generalizing w with
  | nil => exact hm
  | cons t later ih =>
      rw [List.forall_mem_cons] at hsteps
      exact ih (h.step t) (h.marked_step hblend hm hsteps.1) hsteps.2

theorem InStep.mixes (h : w.InStep device info n) (hm : w.registry.Marked) {b : Blend Single}
    (hblend : info.format.blend? = some b) (hfills : b.Fills n) :
    w.Mixes device info n (w.mixer.cycle w.registry).1 (w.step .cycle) := by
  have hlive : ∀ s : Session, s.feeds device info → ¬ s.isTerminal :=
    fun s => s.not_isTerminal_of_feeds
  have hshared := h.tuned.registry
  have hany := h.any?_cycle hblend
  obtain ⟨hregistry, hframe⟩ := h.cycle_spec hblend
  constructor
  case drained =>
    intro id s hs hfeeds hserves
    refine ⟨(s.isOk_read_iff (hlive s hfeeds) n).mpr hserves, ?_⟩
    rw [hany, hs, Option.map_some, if_pos hfeeds]
  case refused =>
    intro id s hs hfeeds hserves
    obtain ⟨hrest, hring⟩ := s.unmoved_read (hm id s hs) (hlive s hfeeds) hserves n
    refine ⟨(s.read n).2.ring, ?_, hring⟩
    rw [hany, hs, Option.map_some, if_pos hfeeds, ← hrest]
  case untouched =>
    intro id hother
    rw [hany]
    cases hs : w.registry.any? id with
    | none => rfl
    | some s => rw [Option.map_some, if_neg (hother s hs)]
  case rest =>
    rw [hregistry]
    exact w.registry.performEach_rest _ fun _ => rfl
  case played =>
    rintro ⟨id, s, hs, hfeeds, hdata⟩
    have hmem := (hshared.mem_filter_all hlive hs).mpr hfeeds
    cases hplayed : Mixer.frame? b n (w.registry.all.filter (·.feeds device info)) with
    | none => exact absurd (Mixer.frame?_eq_none.mp hplayed s hmem) (Nat.ne_of_gt hdata)
    | some frame =>
        rw [hplayed] at hframe
        exact ⟨frame, Mixer.length_frame? hfills hplayed, hframe⟩
  case silent =>
    intro hnone
    have hempty : Mixer.frame? b n (w.registry.all.filter (·.feeds device info)) = none := by
      refine Mixer.frame?_eq_none.mpr fun s hs => ?_
      have hfound := (hshared.toAscending.finds_filter _).found s hs
      exact hnone s.id s hfound (List.mem_filter.mp hs).2
    rw [hempty] at hframe
    exact hframe

end MixerWatch

/-- Whatever happened before to the sessions, to their rings and to the mixer: a cycle takes exactly
one span from each session that runs, is bound to the device and has the format of the mixer, muted
or not, if its ring is not released and not in use. All other sessions and their rings it leaves as
they were. The output is handed one frame of one span if any of the sessions had data, and nothing
otherwise. -/
theorem each_input_drained_once {σ : Type} [Playback σ] (host : Host)
    (home : Option Session.RingHome) (files : Directory) {device : Device} {info : StreamFormat}
    {spanFrames : UInt32} {output : σ} {mixer : Mixer σ}
    (hmade : Mixer.create device info spanFrames output = .ok mixer)
    {steps : List (MixerStep σ)} (hsteps : ∀ t ∈ steps, t.Fair) {w : MixerWatch σ}
    (hrun : MixerWatch.run
      { mixer := mixer, registry := { host := host, home := home, files := files } } steps = w) :
    w.Mixes device info (spanFrames * UInt32.ofNat info.bytesPerFrame).toNat
      (w.mixer.cycle w.registry).1 (w.step .cycle) := by
  rw [← Mixer.spanBytes_of_create hmade]
  obtain ⟨b, hblend⟩ := Mixer.blend?_of_create hmade
  have hstart : MixerWatch.InStep device info mixer.spanBytes
      { mixer := mixer, registry := { host := host, home := home, files := files } } :=
    MixerWatch.inStep_create hmade
  have hw := hrun ▸ hstart.run steps
  have hm := hrun ▸ hstart.marked_run hblend Registry.marked_empty hsteps
  exact hw.mixes hm hblend (Mixer.fills_of_create hmade (Blend.suits_of_blend? hblend))

/-- A session is muted, and its span goes into a frame all the same. Another one is left alone,
as the other side is reading from its ring. -/
theorem muted_input_drained :
    let speaker : Device := { type := .speaker, role := .output, connectedAt := 1 }
    let mono : StreamFormat := { channels := 1 }
    let opened (id : Nat) : List (MixerStep Adapter.Jack) :=
      [.sessions (.create ⟨.render .music, mono, 1000, 2, 2⟩), .sessions (.call id .resolve),
        .sessions (.call id (.bind speaker)), .sessions (.call id .start),
        .sessions (.call id (.write [1, 2, 3, 4] 5))]
    let steps := opened 1 ++ opened 2 ++ [.sessions (.control 1 { isMuted := true }),
      .sessions (.touch 2 (.overwrite consumerBusyAt [1, 0, 0, 0]))]
    ∃ mixer w, Mixer.create speaker mono 2 (Adapter.Jack.looped mono) = .ok mixer ∧
      (∀ t ∈ steps, t.Fair) ∧ MixerWatch.run { mixer := mixer, registry := {} } steps = w ∧
      (w.registry.any? 1).any (fun s =>
        s.feeds speaker mono && s.controls.isMuted && s.taken 4 = 4) ∧
      (w.registry.any? 2).any (fun s => s.feeds speaker mono && !(s.read 4).1.isOk) ∧
      w.Mixes speaker mono 4 (w.mixer.cycle w.registry).1 (w.step .cycle) := by
  intro speaker mono opened steps
  obtain ⟨mixer, hmade⟩ :
      ∃ mixer, Mixer.create speaker mono 2 (Adapter.Jack.looped mono) = .ok mixer := ⟨_, rfl⟩
  have hspan : (2 * UInt32.ofNat mono.bytesPerFrame).toNat = 4 := by decide
  have hsteps : ∀ t ∈ steps, t.Fair := by
    have hmark : SharedStep.Fair (.overwrite consumerBusyAt [1, 0, 0, 0]) :=
      .mark (w := 1) (by decide) (.inr rfl)
    simp [steps, opened, MixerStep.Fair, SharedRegistryStep.Fair, SharedRegistryStep.Touches, hmark]
  have hmixes := each_input_drained_once {} none ∅ hmade hsteps rfl
  rw [hspan] at hmixes
  refine ⟨mixer, _, hmade, hsteps, rfl, ?_, ?_, hmixes⟩
  all_goals
    cases hmade
    decide +kernel

end Patchbay
