import Patchbay.Endpoints
import Patchbay.Proofs.Mix.RouteCaches
import Patchbay.Proofs.Session.PlayRequest
import Patchbay.Proofs.Session.Shared
import Patchbay.Settings.Reading

/-!
# Who drains a stream

Every mixer takes spans from the sessions that run and are bound to its device. Which device that
is comes from a line of the settings, and two lines may tell of one endpoint. Over all that happens
to the sessions and the mixers, no session is drained by two mixers exactly if no two lines do, or
if there are no mixers.
-/
namespace Patchbay
open Adapter (Catalog Jack World)

/-- The output devices that are there from the start. -/
def Settings.outputs (s : Settings) : List Device :=
  (s.devices.filter (·.role = .output)).map (·.device)

/-- Those of them that a mixer is made for: none if the format cannot be mixed. -/
def Settings.mixed (s : Settings) : List Device :=
  if s.stream.info.format.blend?.isNone then [] else s.outputs

/-- The sessions that a cycle takes spans from. -/
def Mixer.drains {σ : Type} (m : Mixer σ) (reg : Registry) : List Session :=
  (m.routes.refresh reg).2.running reg

/-- The mixers and the sessions that they play. -/
structure MixWatch where
  mixers : List (Mixer Jack)
  registry : Registry

inductive MixStep where
  | sessions (t : SharedRegistryStep)
  /-- The output of mixer `i` has become a different one. -/
  | plug (i : Nat) (output : Jack)
  /-- A cycle of mixer `i`. -/
  | cycle (i : Nat)

namespace MixWatch

def step (w : MixWatch) : MixStep → MixWatch
  | .sessions t => { w with registry := w.registry.sharedStep t }
  | .plug i output => { w with mixers := w.mixers.modify i ({ · with output := output }) }
  | .cycle i =>
    match w.mixers[i]? with
    | none => w
    | some m =>
      let (_, m, registry) := m.cycle w.registry
      ⟨w.mixers.set i m, registry⟩

def run (w : MixWatch) (steps : List MixStep) : MixWatch :=
  steps.foldl step w

/-- No session is drained by two mixers. -/
def Exclusive (w : MixWatch) : Prop :=
  w.mixers.Pairwise fun m m' =>
    ∀ s ∈ m.drains w.registry, ∀ s' ∈ m'.drains w.registry, s.id ≠ s'.id

instance (w : MixWatch) : Decidable w.Exclusive :=
  inferInstanceAs (Decidable (w.mixers.Pairwise fun m m' =>
    ∀ s ∈ m.drains w.registry, ∀ s' ∈ m'.drains w.registry, s.id ≠ s'.id))

end MixWatch

namespace Registry
variable {r : Registry} {id : Nat} {s : Session}

/-- Every session does what its client wants. -/
def Kept (r : Registry) : Prop :=
  ∀ id s, r.any? id = some s → ∃ wants, PlayRequest.Kept ⟨s, wants⟩

theorem Kept.device (h : r.Kept) (hs : r.any? id = some s) (hrunning : s.isRunning) :
    ¬ s.device.isNone := by
  have hstate : s.state = .running := of_decide_eq_true hrunning
  obtain ⟨wants, hend | hs⟩ := h id s hs
  · rcases Session.isTerminal_iff.mp hend with hend | hend <;>
      exact absurd (hstate.symm.trans hend) (by decide)
  · cases hs with
    | waiting hd hs hp => exact absurd (hstate.symm.trans hs) (by decide)
    | playing hd hs hp => exact hd
    | idle hs hp => exact absurd hstate hs

theorem Kept.perform (h : r.Kept) (hr : r.Numbered) (id : Nat) (c : SessionCall) :
    (r.perform id c).Kept := by
  intro id' s' hs'
  rcases perform_cases hr hs' with ⟨s, hs, rfl, rfl⟩ | ⟨-, hold⟩
  · obtain ⟨wants, hkept⟩ := h id' s hs
    exact ⟨_, hkept.call c⟩
  · exact h id' s' hold

theorem Kept.modify (h : r.Kept) (id : Nat) {f : Session → Session}
    (hf : ∀ s : Session, s.OnlyMoves (f s)) : (r.modify id f).Kept := by
  intro id' s' hs'
  rw [any?_modify] at hs'
  split at hs'
  · obtain ⟨s, hs, rfl⟩ := Option.map_eq_some_iff.mp hs'
    obtain ⟨wants, hend | hs⟩ := h _ s hs
    · refine ⟨wants, Or.inl ?_⟩
      show (f s).isTerminal
      rw [Session.isTerminal, (hf s).state]
      exact hend
    · exact ⟨wants, Or.inr (hs.of_onlyMoves (hf s))⟩
  · exact h id' s' hs'

theorem Kept.sharedStep (h : r.Kept) (hr : r.Numbered) (t : SharedRegistryStep) :
    (r.sharedStep t).Kept := by
  cases t with
  | create config =>
      show (r.create config).2.Kept
      rcases r.create_cases config with ⟨e, files, hmade⟩ | ⟨ring, files, -, hmade⟩
      · rw [hmade]
        exact h
      · rw [hmade]
        intro id s hs
        rcases hr.get?_put_next.mp hs with ⟨-, rfl⟩ | hold
        · exact ⟨false, Or.inr (.idle (by simp) Bool.false_ne_true)⟩
        · exact h id s hold
  | call id c => exact h.perform hr id c
  | control id controls => exact h.modify id fun s => ⟨⟨rfl, rfl, rfl⟩, rfl, rfl⟩
  | claim handle => exact h
  | touch id t => exact h.modify id fun s => ⟨⟨rfl, rfl, rfl⟩, rfl, rfl⟩
  | remove id =>
      show (r.remove id).2.Kept
      rcases r.remove_cases id with hnone | ⟨-, hremove⟩
      · rw [hnone]
        exact h
      · rw [hremove]
        exact h.perform hr id .release
  | reap =>
      show r.reap.2.Kept
      obtain ⟨generation, hreap⟩ := r.reap_eq
      rw [hreap]
      exact h

end Registry

/-- The registry and the caches of it are as they should be. -/
structure Tuned (caches : List RouteCache) (r : Registry) : Prop where
  registry : r.Shared
  kept : r.Kept
  follows : ∀ c ∈ caches, c.Follows r

namespace Tuned
variable {caches : List RouteCache} {r : Registry}

theorem step (h : Tuned caches r) (t : SharedRegistryStep) : Tuned caches (r.sharedStep t) where
  registry := h.registry.step t
  kept := h.kept.sharedStep h.registry.numbered t
  follows c hc := (h.follows c hc).marks h.registry.toAscending (h.registry.step t).toAscending
    (Registry.sharedStep_marks h.registry.numbered t)

end Tuned

namespace Mixer
variable {σ τ : Type}

theorem gather_registry (b : Blend τ) (spanBytes : Nat) (d : Mixdown τ) (s : Session) :
    (gather b spanBytes d s).registry = d.registry.sharedStep (.call s.id (.read spanBytes)) := by
  unfold gather
  split <;>
    · rename_i h
      exact congrArg Prod.snd h.symm

theorem tuned_mixdown {caches : List RouteCache} {reg : Registry} (h : Tuned caches reg)
    (b : Blend τ) (spanBytes : Nat) (sessions : List Session) :
    Tuned caches (mixdown b spanBytes reg sessions).registry := by
  unfold mixdown
  generalize hd : ({ registry := reg, mix := b.quiet (spanBytes / b.width) } : Mixdown τ) = d
  have hreg : Tuned caches d.registry := hd ▸ h
  clear hd h
  induction sessions generalizing d with
  | nil => exact hreg
  | cons s rest ih =>
      refine ih _ ?_
      rw [gather_registry]
      exact hreg.step _

/-- A cycle brings the cache up to date and drains the sessions that it then finds. A mixer of a
format that cannot be mixed does nothing. -/
theorem cycle_cases [Playback σ] (m : Mixer σ) (reg : Registry) :
    m.cycle reg = (.ok 0, m, reg) ∨ ∃ (b : Blend Single) (a : Except DeviceError Nat) (output : σ),
      m.cycle reg = (a, { m with routes := (m.routes.refresh reg).2, output := output },
        (mixdown b m.spanBytes reg (m.drains reg)).registry) := by
  unfold cycle
  split
  · exact .inl rfl
  · rename_i b _
    right
    unfold cycleWith
    dsimp only
    split
    · exact ⟨b, _, _, rfl⟩
    · exact ⟨b, _, _, rfl⟩

end Mixer

namespace RouteCache

/-- The cache as it was before it was first brought up to date. -/
def blank (c : RouteCache) : RouteCache :=
  { device := c.device, role := c.role, info := c.info }

end RouteCache

namespace Tuned
variable {caches : List RouteCache} {r : Registry} {c : RouteCache} {i : Nat}

theorem refresh (h : Tuned caches r) (hc : c ∈ caches) (i : Nat) :
    Tuned (caches.set i (c.refresh r).2) r where
  registry := h.registry
  kept := h.kept
  follows c' hc' := by
    rcases List.mem_or_eq_of_mem_set hc' with hc' | rfl
    · exact h.follows c' hc'
    · exact (h.follows c hc).refresh h.registry.toAscending

end Tuned

theorem map_set_of_same {α β : Type} {l : List α} {i : Nat} {a a' : α} (f : α → β)
    (ha : l[i]? = some a) (hsame : f a' = f a) : (l.set i a').map f = l.map f := by
  have hmapped : (l.map f)[i]? = some (f a) := by
    rw [List.getElem?_map, ha]
    rfl
  obtain ⟨hi, helem⟩ := List.getElem?_eq_some_iff.mp hmapped
  rw [List.map_set, hsame, ← helem, List.set_getElem_self]

namespace MixWatch
variable {w : MixWatch} {info : StreamFormat} {devices : List Device}

/-- The caches of the mixers. -/
def caches (w : MixWatch) : List RouteCache :=
  w.mixers.map (·.routes)

/-- What every step preserves: each of the devices has its mixer, and the caches are right. -/
structure InStep (devices : List Device) (info : StreamFormat) (w : MixWatch) : Prop where
  tuned : Tuned w.caches w.registry
  mixers : w.caches.map (·.blank) =
    devices.map fun d => { device := d, role := .output, info := info }

theorem caches_plug (w : MixWatch) (i : Nat) (output : Jack) :
    (w.step (.plug i output)).caches = w.caches := by
  refine List.ext_getElem? fun j => ?_
  simp only [caches, MixWatch.step, List.getElem?_map, List.getElem?_modify]
  cases w.mixers[j]? with
  | none => rfl
  | some m => split <;> rfl

theorem InStep.cycle (h : w.InStep devices info) (i : Nat) :
    (w.step (.cycle i)).InStep devices info := by
  simp only [MixWatch.step]
  split
  · exact h
  · rename_i m hm
    rcases m.cycle_cases w.registry with hidle | ⟨b, a, output, hcycle⟩
    · rw [hidle]
      have hsame : w.mixers.set i m = w.mixers := by
        obtain ⟨hi, rfl⟩ := List.getElem?_eq_some_iff.mp hm
        exact List.set_getElem_self hi
      dsimp only
      rw [hsame]
      exact h
    · rw [hcycle]
      have hcache : w.caches[i]? = some m.routes := by
        rw [caches, List.getElem?_map, hm]
        rfl
      have hcaches : (w.mixers.set i
          { m with routes := (m.routes.refresh w.registry).2, output := output }).map (·.routes) =
            w.caches.set i (m.routes.refresh w.registry).2 := List.map_set
      refine ⟨?_, ?_⟩
      · rw [caches, hcaches]
        exact Mixer.tuned_mixdown (h.tuned.refresh (List.mem_of_getElem? hcache) i) b _ _
      · have hblank : (m.routes.refresh w.registry).2.blank = m.routes.blank := rfl
        rw [caches, hcaches, map_set_of_same _ hcache hblank]
        exact h.mixers

theorem InStep.step (h : w.InStep devices info) (t : MixStep) : (w.step t).InStep devices info := by
  cases t with
  | sessions t => exact ⟨h.tuned.step t, h.mixers⟩
  | plug i output =>
      refine ⟨?_, ?_⟩ <;> rw [caches_plug]
      · exact h.tuned
      · exact h.mixers
  | cycle i => exact h.cycle i

theorem InStep.run (h : w.InStep devices info) (steps : List MixStep) :
    (w.run steps).InStep devices info := by
  induction steps generalizing w with
  | nil => exact h
  | cons t later ih => exact ih (h.step t)

end MixWatch

/-- The session plays in the format. -/
structure Session.Plays (s : Session) (info : StreamFormat) : Prop where
  role : s.intent.role = .output
  info : s.config.info = info
  isRunning : s.isRunning

namespace MixWatch
variable {w : MixWatch} {info : StreamFormat} {devices : List Device} {m : Mixer Jack}
  {s : Session}

theorem InStep.devices_eq (h : w.InStep devices info) :
    w.mixers.map (·.routes.device) = devices := by
  have hdevices := congrArg (List.map (·.device)) h.mixers
  simp only [caches, List.map_map] at hdevices
  exact hdevices.trans (List.map_id devices)

theorem InStep.mem_drains (h : w.InStep devices info) (hm : m ∈ w.mixers) :
    s ∈ m.drains w.registry ↔
      s ∈ w.registry.all ∧ s.Plays info ∧ s.device.sameEndpoint m.routes.device := by
  have hcache : m.routes ∈ w.caches := List.mem_map_of_mem hm
  have hblank : m.routes.blank ∈ w.caches.map (·.blank) := List.mem_map_of_mem hcache
  rw [h.mixers] at hblank
  obtain ⟨d, -, hblank⟩ := List.mem_map.mp hblank
  have hrole : m.routes.role = .output := congrArg RouteCache.role hblank.symm
  have hinfo : m.routes.info = info := congrArg RouteCache.info hblank.symm
  rw [Mixer.drains, (h.tuned.follows _ hcache).running_refresh h.tuned.registry.toAscending,
    List.mem_filter, RouteCache.suits, hrole, hinfo]
  constructor
  · intro hs
    simp only [Bool.and_eq_true, decide_eq_true_eq] at hs
    obtain ⟨hall, ⟨⟨hsrole, hsinfo⟩, hdevice⟩, hrunning⟩ := hs
    exact ⟨hall, ⟨hsrole, hsinfo, hrunning⟩, hdevice⟩
  · rintro ⟨hall, ⟨hsrole, hsinfo, hrunning⟩, hdevice⟩
    simp [hall, hsrole, hsinfo, hrunning, hdevice]

/-- A session that two mixers drain is bound to a device that is the endpoint of both. -/
theorem InStep.exclusive (h : w.InStep devices info)
    (hdevices : devices.Pairwise fun d d' => ¬ d.isNone → ¬ d.sameEndpoint d') : w.Exclusive := by
  rw [← h.devices_eq, List.pairwise_map] at hdevices
  refine hdevices.imp_of_mem fun {m m'} hm hm' hapart s hs s' hs' hid => ?_
  obtain ⟨hall, hplays, hdevice⟩ := (h.mem_drains hm).mp hs
  obtain ⟨hall', -, hdevice'⟩ := (h.mem_drains hm').mp hs'
  have hfound := h.tuned.registry.numbered.any?_of_mem_all hall
  have hfound' := h.tuned.registry.numbered.any?_of_mem_all hall'
  rw [← hid, hfound] at hfound'
  cases hfound'
  refine hapart ?_ (Device.sameEndpoint_trans (Device.sameEndpoint_symm hdevice) hdevice')
  have hreal := h.tuned.kept.device hfound hplays.isRunning
  rw [Device.isNone, ← (Device.sameEndpoint_iff.mp hdevice).1]
  exact hreal

/-- A session that plays to a device is drained by every mixer of its endpoint. -/
theorem InStep.apart (h : w.InStep devices info) (hexclusive : w.Exclusive) {id : Nat}
    (hs : w.registry.any? id = some s) (hplays : s.Plays info) :
    devices.Pairwise fun d d' => ¬ (s.device.sameEndpoint d ∧ s.device.sameEndpoint d') := by
  have hlive : ¬ s.isTerminal := Session.not_isTerminal_of_isRunning hplays.isRunning
  have hall : s ∈ w.registry.all :=
    List.mem_filterMap.mpr ⟨id, h.tuned.registry.live id s hs hlive, hs⟩
  rw [← h.devices_eq, List.pairwise_map]
  refine hexclusive.imp_of_mem fun {m m'} hm hm' hapart hboth => ?_
  exact hapart s ((h.mem_drains hm).mpr ⟨hall, hplays, hboth.1⟩) s
    ((h.mem_drains hm').mpr ⟨hall, hplays, hboth.2⟩) rfl

end MixWatch

namespace Endpoints
variable {catalog : Catalog} {world : World} {s : Settings}

/-- There are mixers if the format can be mixed, one for each output device. -/
theorem routes_ofSettings
    (hopen : ∀ d ∈ s.devices, d.role = .output →
      (catalog.openSink world d.adapter { info := s.stream.info }).1.isOk) :
    (ofSettings catalog world s).mixers.map (·.routes) =
      s.mixed.map fun d => { device := d, role := .output, info := s.stream.info } := by
  have hmixer : ∀ d ∈ s.devices.filter (·.role = .output),
      ((mixer catalog world s.stream d).toOption.map (·.routes)) =
        if s.stream.info.format.blend?.isNone then none
        else some { device := d.device, role := .output, info := s.stream.info } := by
    intro d hd
    obtain ⟨hd, hrole⟩ := List.mem_filter.mp hd
    have hsink := hopen d hd (of_decide_eq_true hrole)
    unfold mixer
    split
    · rename_i e _ hopened
      rw [hopened] at hsink
      cases hsink
    · unfold Mixer.create
      split <;> rfl
  unfold ofSettings Settings.mixed Settings.outputs
  dsimp only
  rw [List.map_filterMap, List.filterMap_congr hmixer]
  split
  · exact List.filterMap_none _
  · rw [List.map_map]
    exact congrFun List.filterMap_eq_map _

end Endpoints

theorem MixWatch.inStep_ofSettings {catalog : Catalog} {world : World} {s : Settings}
    (hopen : ∀ d ∈ s.devices, d.role = .output →
      (catalog.openSink world d.adapter { info := s.stream.info }).1.isOk)
    (host : Host) (home : Option Session.RingHome) (files : Directory) :
    InStep s.mixed s.stream.info ⟨(Endpoints.ofSettings catalog world s).mixers,
      { host := host, home := home, files := files }⟩ := by
  have hroutes := Endpoints.routes_ofSettings hopen
  refine ⟨⟨Registry.shared_empty, (fun id s hs => by cases hs), fun c hc => ?_⟩, ?_⟩
  · rw [caches, hroutes] at hc
    obtain ⟨d, -, rfl⟩ := List.mem_map.mp hc
    exact RouteCache.follows_new d .output _ _
  · rw [caches, hroutes, List.map_map]
    rfl

/-- A stream of single frames. -/
def StreamConfig.singles (info : StreamFormat) : StreamConfig :=
  ⟨.render .music, info, 1000, 1, 1⟩

theorem Session.create_singles {info : StreamFormat} (h : info.channels ≠ 0) :
    ∃ s files handles,
      Session.create {} none 1 (.singles info) ∅ {} = (.ok s, files, handles) := by
  have hpositive : 0 < info.bytesPerFrame := by
    refine Nat.mul_pos ?_ (by cases info.format <;> decide)
    exact Nat.pos_of_ne_zero fun hzero => h (UInt16.toNat_inj.mp hzero)
  have hsmall : info.bytesPerFrame < UInt32.size :=
    Nat.lt_trans info.bytesPerFrame_lt (by decide)
  have hcount : StreamConfig.spanCount (.singles info) = 1 := by
    show (1 : UInt32) / 1 = 1
    decide
  have hpower : isPowerOfTwo (1 : UInt32).toNat := by decide
  have hcheck : (StreamConfig.singles info).check = .ok () := by
    have htotal : (StreamConfig.singles info).totalFrames = 1 := rfl
    have hframes : (StreamConfig.singles info).spanFrames = 1 := rfl
    unfold StreamConfig.check
    rw [hcount, hpower, htotal, hframes, if_neg (by decide), if_neg (by decide),
      if_neg (by decide)]
    exact if_neg (Nat.ne_of_gt hpositive)
  have hspan : (StreamConfig.singles info).spanBytes? = some (UInt32.ofNat info.bytesPerFrame) := by
    unfold StreamConfig.spanBytes?
    rw [show (StreamConfig.singles info).spanFrames.toNat = 1 from rfl, Nat.one_mul]
    exact if_pos hsmall
  have hsize : (UInt32.ofNat info.bytesPerFrame).toNat = info.bytesPerFrame :=
    UInt32.toNat_ofNat_of_lt' hsmall
  have hring : ∃ ring, RingGeometry.createAnonymous ⟨1, UInt32.ofNat info.bytesPerFrame⟩ {} =
      .ok ring := by
    have hgeometry : RingGeometry.check ⟨1, UInt32.ofNat info.bytesPerFrame⟩ = .ok () := by
      refine RingGeometry.check_eq_ok_iff.mpr ⟨⟨0, rfl⟩, fun hzero => ?_⟩
      rw [← UInt32.toNat_inj, hsize] at hzero
      exact Nat.ne_of_gt hpositive hzero
    unfold RingGeometry.createAnonymous
    rw [hgeometry]
    refine ⟨_, if_pos (decide_eq_true ?_)⟩
    show RingGeometry.headerBytes +
      1 * (RingGeometry.metaBytes + (UInt32.ofNat info.bytesPerFrame).toNat) < _
    rw [hsize]
    have := info.bytesPerFrame_lt
    simp only [RingGeometry.headerBytes, RingGeometry.metaBytes]
    omega
  obtain ⟨ring, hring⟩ := hring
  unfold Session.create
  rw [hcheck]
  dsimp only
  rw [hspan]
  dsimp only
  rw [hcount, hring]
  exact ⟨_, _, _, rfl⟩

/-- A client makes a stream of single frames, it is bound to the device, and it is started. -/
def playTo (info : StreamFormat) (d : Device) : List MixStep :=
  [.sessions (.create (.singles info)), .sessions (.call 1 .resolve), .sessions (.call 1 (.bind d)),
    .sessions (.call 1 .start)]

theorem any?_create_singles {info : StreamFormat} (h : info.channels ≠ 0) :
    ∃ s, (({} : Registry).create (.singles info)).2.any? 1 = some s ∧ s.state = .new ∧
      s.isPending = false ∧ s.config = .singles info := by
  obtain ⟨s, files, handles, hcreate⟩ := Session.create_singles h
  rcases ({} : Registry).create_cases (.singles info) with
    ⟨e, files', hfailed⟩ | ⟨ring, files', -, hmade⟩
  · unfold Registry.create at hfailed
    dsimp only at hfailed
    rw [hcreate] at hfailed
    cases hfailed
  · rw [hmade]
    exact ⟨_, rfl, rfl, rfl, rfl⟩

theorem Session.started_on {s : Session} (hs : s.state = .new) (hpending : s.isPending = false)
    {d : Device} (hd : ¬ d.isNone) :
    ∃ epoch, (((s.perform .resolve).2.1.perform (.bind d)).2.1.perform .start).2.1 =
      { s with state := .running, device := d, epoch := epoch } := by
  have hresolve : s.resolve.2 = { s with state := .prepared } := by
    simp [resolve, isTerminal, SessionState.isTerminal, hs]
  have hbind : (({ s with state := .prepared } : Session).bind d).2 = { s with
      state := .prepared
      device := d
      epoch := if s.device = d then s.epoch else s.epoch + 1 } := by
    simp [bind, isTerminal, SessionState.isTerminal, hd, hpending]
  refine ⟨if s.device = d then s.epoch else s.epoch + 1, ?_⟩
  show (s.resolve.2.bind d).2.start.2 = _
  rw [hresolve, hbind]
  simp [start, hd, hpending]

theorem plays_playTo {info : StreamFormat} (h : info.channels ≠ 0) {d : Device} (hd : ¬ d.isNone)
    (mixers : List (Mixer Jack)) :
    ∃ s, (MixWatch.run ⟨mixers, {}⟩ (playTo info d)).registry.any? 1 = some s ∧ s.device = d ∧
      s.Plays info := by
  obtain ⟨s, hmade, hstate, hpending, hconfig⟩ := any?_create_singles h
  have hempty : Registry.Shared {} := Registry.shared_empty
  have hshared := hempty.step (.create (.singles info))
  have hresolved := (Registry.any?_perform hshared.numbered hmade .resolve 1).trans (if_pos rfl)
  have hshared := hshared.step (.call 1 .resolve)
  have hbound := (Registry.any?_perform hshared.numbered hresolved (.bind d) 1).trans (if_pos rfl)
  have hshared := hshared.step (.call 1 (.bind d))
  have hstarted := (Registry.any?_perform hshared.numbered hbound .start 1).trans (if_pos rfl)
  obtain ⟨epoch, hsession⟩ := Session.started_on hstate hpending hd
  rw [hsession] at hstarted
  refine ⟨_, hstarted, rfl, ?_, ?_, rfl⟩
  · show s.config.intent.role = .output
    rw [hconfig]
    rfl
  · show s.config.info = info
    rw [hconfig]
    rfl

theorem Settings.check_of_ofText {lookup : String → Option String} {text : String} {s : Settings}
    (h : Settings.ofText lookup text = .ok s) : s.check = .ok () := by
  unfold Settings.ofText at h
  cases hexpand : Template.expand lookup text with
  | error e =>
      rw [hexpand] at h
      cases h
  | ok expanded =>
      rw [hexpand] at h
      dsimp only [bind, Except.bind] at h
      split at h
      · cases h
      · split at h
        · cases h
        · cases h
          assumption

theorem Settings.channels_ne_zero {s : Settings} (h : s.check = .ok ()) :
    s.stream.info.channels ≠ 0 := by
  intro hzero
  unfold Settings.check at h
  dsimp only at h
  split at h
  · cases h
  · split at h
    · cases h
    · split at h
      · cases h
      · cases h

/-- However the settings are read: if the adapters of all output devices open, then over all that
can happen to the sessions and the mixers no session is ever drained by two of them, exactly if
the format cannot be mixed or no two output devices are one endpoint of a real type. -/
theorem drained_once_iff_apart {lookup : String → Option String} {text : String} {s : Settings}
    (hs : Settings.ofText lookup text = .ok s) {catalog : Catalog} {world : World}
    (hopen : ∀ d ∈ s.devices, d.role = .output →
      (catalog.openSink world d.adapter { info := s.stream.info }).1.isOk) :
    (∀ (host : Host) (home : Option Session.RingHome) (files : Directory) (steps : List MixStep),
      (MixWatch.run ⟨(Endpoints.ofSettings catalog world s).mixers,
        { host := host, home := home, files := files }⟩ steps).Exclusive) ↔
    s.stream.info.format.blend?.isNone ∨
      s.outputs.Pairwise fun d d' => ¬ d.isNone → ¬ d.sameEndpoint d' := by
  have hstart := MixWatch.inStep_ofSettings hopen
  constructor
  · intro hexclusive
    refine or_iff_not_imp_left.mpr fun hblend => ?_
    have hmixed : s.mixed = s.outputs := if_neg hblend
    have hchannels := Settings.channels_ne_zero (Settings.check_of_ofText hs)
    have hapart {d : Device} (hd : ¬ d.isNone) :
        s.outputs.Pairwise fun e e' => ¬ (d.sameEndpoint e ∧ d.sameEndpoint e') := by
      obtain ⟨session, hsession, rfl, hplays⟩ := plays_playTo hchannels hd
        (Endpoints.ofSettings catalog world s).mixers
      rw [← hmixed]
      exact ((hstart {} none ∅).run _).apart (hexclusive {} none ∅ _) hsession hplays
    rw [List.pairwise_iff_getElem]
    intro i j hi hj hij hd hsame
    exact List.pairwise_iff_getElem.mp (hapart hd) i j hi hj hij
      ⟨Device.sameEndpoint_refl _, hsame⟩
  · intro hcondition host home files steps
    refine ((hstart host home files).run steps).exclusive ?_
    unfold Settings.mixed
    split
    · exact List.Pairwise.nil
    · rename_i hblend
      exact hcondition.resolve_left hblend

theorem speaker_and_headset_drain_apart :
    let text := "[[device]]\ndevice_type='speaker'\nrole='output'\n" ++
      "[[device]]\ndevice_type='wired_headset'\nrole='output'\n"
    ∃ s, Settings.ofText (fun _ => none) text = .ok s ∧
      (∀ d ∈ s.devices, d.role = .output →
        (({} : Catalog).openSink {} d.adapter { info := s.stream.info }).1.isOk) ∧
      ∀ steps, (MixWatch.run ⟨(Endpoints.ofSettings {} {} s).mixers, {}⟩ steps).Exclusive := by
  intro text
  let s : Settings := { devices := [
    { type := .speaker, role := .output }, { type := .wiredHeadset, role := .output }] }
  have hs : Settings.ofText (fun _ => none) text = .ok s := by decide +kernel
  have hopen : ∀ d ∈ s.devices, d.role = .output →
      (({} : Catalog).openSink {} d.adapter { info := s.stream.info }).1.isOk := by decide +kernel
  exact ⟨s, hs, hopen, fun steps =>
    (drained_once_iff_apart hs hopen).mpr (.inr (by decide)) {} none ∅ steps⟩

/-- Two lines of the settings name one speaker. Of the two spans that a session has queued each of
the mixers plays one. -/
theorem two_mixers_split_queued_spans :
    let text := "[general]\nspan_size_frames=1\n" ++
      "[[device]]\ndevice_type='speaker'\nrole='output'\nname='a'\n" ++
      "[[device]]\ndevice_type='speaker'\nrole='output'\nname='b'\n"
    let speaker : Device := { type := .speaker, role := .output, connectedAt := 1 }
    let steps : List MixStep :=
      [.sessions (.create ⟨.render .music, {}, 1000, 2, 1⟩), .sessions (.call 1 .resolve),
        .sessions (.call 1 (.bind speaker)), .sessions (.call 1 .start),
        .sessions (.call 1 (.write [1, 0, 2, 0] 0)), .sessions (.call 1 (.write [3, 0, 4, 0] 0))]
    ∃ s, Settings.ofText (fun _ => none) text = .ok s ∧
      (∀ d ∈ s.devices, d.role = .output →
        (({} : Catalog).openSink {} d.adapter { info := s.stream.info }).1.isOk) ∧
      let w (more : List MixStep) :=
        MixWatch.run ⟨(Endpoints.ofSettings {} {} s).mixers, {}⟩ (steps ++ more)
      let framesRead (w : MixWatch) := (w.registry.any? 1).map (·.position.framesRead)
      ¬ (w []).Exclusive ∧ framesRead (w []) = some 0 ∧ framesRead (w [.cycle 0]) = some 1 ∧
        framesRead (w [.cycle 0, .cycle 1]) = some 2 := by
  intro text speaker steps
  let s : Settings := {
    stream := { spanFrames := 1 }
    devices := [{ type := .speaker, role := .output, name := "a" },
      { type := .speaker, role := .output, name := "b" }] }
  have hs : Settings.ofText (fun _ => none) text = .ok s := by decide +kernel
  refine ⟨s, hs, by decide +kernel, ?_⟩
  decide +kernel

end Patchbay
