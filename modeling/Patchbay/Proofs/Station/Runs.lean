import Patchbay.Proofs.Route.Sweeps
import Patchbay.Station

/-!
# Runs of a station

Devices come and go, sessions are made, used and ended, and the switchboard handles device
changes and the ends of sessions in the order in which they were published, but as late as it
likes. Once no device change is left to handle, every registered session is where it is routed by
the devices that are connected then. Volumes and parameters play no part in this.
-/
namespace Patchbay

inductive StationStep where
  | devices (t : RosterStep)
  | sessions (t : RegistryStep)
  | register (id : Nat)
  | unregister (id : Nat)
  /-- The next device change is handled. -/
  | change
  /-- The next end of a session is handled. -/
  | event

/-- A device bound by someone else than the switchboard. -/
def StationStep.binds : StationStep → Bool
  | .sessions (.call _ (.bind _)) => true
  | _ => false

namespace Station

/-- A station of the built-in privacy table with nothing in it. -/
def vacant (cs : RouteChains) (host : Host) (home : Option Session.RingHome) : Station :=
  { registry := { host := host, home := home }, board := { chains := cs } }

def step (s : Station) : StationStep → Station
  | .devices (.connect now d) => (s.connect now d).2
  | .devices (.disconnect d) => (s.disconnect d).2
  | .sessions t => { s with registry := s.registry.step t }
  | .register id =>
    match s.registry.any? id with
    | some session => (s.register session).2
    | none => s
  | .unregister id => (s.unregister id).2
  | .change => s.nextChange.2
  | .event => s.nextEvent.2

def run (s : Station) (steps : List StationStep) : Station :=
  steps.foldl step s

/-- What holds of a station without devices and is kept by connecting one holds from the start. -/
theorem ofSettings_induction {P : Station → Prop} {s : Station} {known : List RouteRule}
    {now : UInt64} {home : Option Session.RingHome} {settings : Settings}
    (h : ofSettings known now home settings = .ok s)
    (hempty : ∀ chains, P {
      roster := { table := settings.privacy }
      registry := { home := home }
      board := { chains := chains }
      desk := .ofSettings settings.volume
      parameters := { values := settings.parameters } })
    (hconnect : ∀ st d, P st → P (st.connect now d).2) : P s := by
  have hall : ∀ (seeds : List DeviceSeed) (st : Station), P st →
      P (seeds.foldl (fun st seed => (st.connect now seed.device).2) st) := by
    intro seeds
    induction seeds with
    | nil => exact fun st hst => hst
    | cons seed seeds ih => exact fun st hst => ih _ (hconnect st seed.device hst)
  unfold ofSettings at h
  cases hchains : RouteChains.ofNames known settings.routing with
  | error e =>
      rw [hchains] at h
      cases h
  | ok chains =>
      rw [hchains] at h
      cases h
      exact hall settings.devices _ (hempty chains)

end Station

namespace Switchboard

variable {b : Switchboard} {cs : RouteChains} {r : Roster} {reg reg' : Registry} {id : Nat}
variable {e : RouteEntry} {s : Session} {changes : List DeviceChange}

theorem Follows.continues (h : b.Follows cs r reg changes) (hreg : reg.Continues reg') :
    b.Follows cs r reg' changes :=
  { h with bound := fun id e hget => (h.bound id e hget).continues hreg }

theorem Follows.erase (h : b.Follows cs r reg changes) (id : Nat) {b' : Switchboard}
    (hchains : b'.chains = b.chains) (hentries : b'.entries = b.entries.erase id) :
    b'.Follows cs r reg changes := by
  have hkept : ∀ id' e, b'.entries.get? id' = some e → b.entries.get? id' = some e := by
    intro id' e hget
    rw [hentries] at hget
    exact (Table.get?_of_get?_erase hget).2
  exact {
    chains := hchains.trans h.chains
    bound := fun id' e hget => h.bound id' e (hkept id' e hget)
    placed := fun id' e hget => h.placed id' e (hkept id' e hget) }

/-- A device comes or goes. An entry that is routed elsewhere by that waits for its change. -/
theorem Follows.devices (h : b.Follows cs r reg changes) (hr : r.Consistent)
    (hchain : ∀ c, ∀ rule ∈ cs.chain c, rule ∈ RouteRule.builtIn)
    (hseats : ∀ i, r.table.Seats (r.lastResort i) i.role) (t : RosterStep) :
    b.Follows cs (r.step t).2 reg (changes ++ (r.step t).1.toList) where
  chains := h.chains
  bound := h.bound
  placed := by
    intro id e hget
    rcases h.placed id e hget with ⟨c, hc, htouches⟩ | hplaced
    · exact Or.inl ⟨c, List.mem_append_left _ hc, htouches⟩
    · -- An entry in place stays there, or the change of this step concerns it.
      by_cases hmoved : (cs.route (r.step t).2 e.intent e.uid).SamePlace (cs.route r e.intent e.uid)
      · exact Or.inr (Device.SamePlace.trans hplaced hmoved.symm)
      · obtain ⟨c, hc, htouches⟩ :=
          hr.touches_of_moved (hchain _) (fun _ _ => hseats e.intent) t hmoved
        refine Or.inl ⟨c, List.mem_append_right _ ?_, htouches⟩
        rw [hc]
        exact List.mem_singleton_self c

theorem Follows.register (h : b.Follows cs r reg changes) (hr : reg.Numbered)
    (hs : reg.any? id = some s) :
    (b.register r reg s).2.1.Follows cs r (b.register r reg s).2.2 changes ∧
      (b.register r reg s).2.2.Numbered := by
  have hid := (hr id s hs).1
  subst hid
  unfold Switchboard.register
  by_cases hhas : b.entries.has s.id
  · rw [if_pos hhas]
    exact ⟨h, hr⟩
  rw [if_neg hhas, h.chains]
  dsimp only
  obtain ⟨s', hreg, hid', hconfig, hanswer⟩ :=
    Registry.apply_bind hr hs (cs.route r s.intent s.config.uid)
  have hnumbered := hreg.numbered hr hs hid'
  generalize reg.apply s.id (·.bind (cs.route r s.intent s.config.uid)) = outcome at *
  obtain ⟨answer, reg'⟩ := outcome
  dsimp only at hreg hnumbered hanswer ⊢
  rcases hanswer with ⟨error, rfl, hsame⟩ | ⟨rfl, hdevice⟩
  · rw [hsame] at hreg
    exact ⟨h.continues (hreg.continues hs (.refl s)), hnumbered⟩
  · refine ⟨?_, hnumbered⟩
    exact {
      chains := (chains_noteOutput b _ _).trans h.chains
      bound := by
        dsimp only
        rw [entries_noteOutput]
        refine hreg.boundIn_put h.bound (hreg.boundIn ?_ ?_ hdevice)
        · rw [Session.intent, hconfig]
          rfl
        · rw [hconfig]
      placed := by
        intro id e hget
        dsimp only at hget
        rw [entries_noteOutput] at hget
        rcases Table.get?_put_cases hget with ⟨rfl, rfl⟩ | ⟨-, hget⟩
        · exact Or.inr (Device.samePlace_refl _)
        · exact h.placed id e hget }

end Switchboard

namespace Station

/-- What every step preserves. -/
structure Follows (s : Station) (cs : RouteChains) : Prop where
  consistent : s.roster.Consistent
  seats : ∀ i, s.roster.table.Seats (s.roster.lastResort i) i.role
  numbered : s.registry.Numbered
  board : s.board.Follows cs s.roster s.registry s.changes

variable {s : Station} {cs : RouteChains} {names : ChainNames}

theorem step_devices (s : Station) (t : RosterStep) : s.step (.devices t) = { s with
    roster := (s.roster.step t).2
    changes := s.changes ++ (s.roster.step t).1.toList } := by
  cases t <;> rfl

theorem Follows.devices (h : s.Follows cs)
    (hchain : ∀ c, ∀ rule ∈ cs.chain c, rule ∈ RouteRule.builtIn) (t : RosterStep) :
    (s.step (.devices t)).Follows cs := by
  rw [step_devices]
  exact {
    consistent := h.consistent.step t
    seats := by
      intro i
      have htable := (s.roster.settings_run [t]).1
      have hlast := s.roster.lastResort_run [t] i
      show (s.roster.run [t]).table.Seats ((s.roster.run [t]).lastResort i) i.role
      rw [hlast, htable]
      exact h.seats i
    numbered := h.numbered
    board := h.board.devices h.consistent hchain h.seats t }

theorem Follows.change (h : s.Follows cs) : (s.step .change).Follows cs := by
  show s.nextChange.2.Follows cs
  unfold nextChange
  split
  · exact h
  · rename_i change later hchanges
    have hboard := h.board
    rw [hchanges] at hboard
    obtain ⟨hfollows, hnumbered⟩ := hboard.handleChange h.numbered
    exact {
      consistent := h.consistent
      seats := h.seats
      numbered := hnumbered
      board := hfollows }

theorem Follows.event (h : s.Follows cs) : (s.step .event).Follows cs := by
  show s.nextEvent.2.Follows cs
  unfold nextEvent
  split
  · exact h
  · rename_i event later hevents
    have hpop : s.registry.Continues { s.registry with events := later } :=
      fun id session hs => ⟨session, hs, .refl session⟩
    have hboard : (s.board.handleEvent event).Follows cs s.roster s.registry s.changes := by
      unfold Switchboard.handleEvent
      split
      · exact h.board.erase event.sessionId rfl rfl
      · exact h.board
    exact {
      consistent := h.consistent
      seats := h.seats
      numbered := h.numbered
      board := hboard.continues hpop }

theorem Follows.step (h : s.Follows cs)
    (hchain : ∀ c, ∀ rule ∈ cs.chain c, rule ∈ RouteRule.builtIn) {t : StationStep}
    (ht : ¬ t.binds) : (s.step t).Follows cs := by
  cases t with
  | devices t => exact h.devices hchain t
  | sessions t =>
      obtain ⟨hnumbered, hcontinues⟩ := Registry.step_continues h.numbered t fun id d hc => by
        subst hc
        exact ht rfl
      exact {
        consistent := h.consistent
        seats := h.seats
        numbered := hnumbered
        board := h.board.continues hcontinues }
  | register id =>
      unfold Station.step
      dsimp only
      split
      · rename_i session hs
        obtain ⟨hboard, hnumbered⟩ := h.board.register h.numbered hs
        exact {
          consistent := h.consistent
          seats := h.seats
          numbered := hnumbered
          board := hboard }
      · exact h
  | unregister id =>
      refine { h with board := ?_ }
      show (s.board.unregister id).2.Follows cs s.roster s.registry s.changes
      unfold Switchboard.unregister
      split
      · exact h.board.erase id rfl rfl
      · exact h.board
  | change => exact h.change
  | event => exact h.event

theorem Follows.run (h : s.Follows cs)
    (hchain : ∀ c, ∀ rule ∈ cs.chain c, rule ∈ RouteRule.builtIn) {steps : List StationStep}
    (hsteps : ∀ t ∈ steps, ¬ t.binds) : (s.run steps).Follows cs := by
  induction steps generalizing s with
  | nil => exact h
  | cons t rest ih =>
      have hstep := h.step hchain (hsteps t List.mem_cons_self)
      exact ih hstep fun t ht => hsteps t (List.mem_cons_of_mem _ ht)

theorem follows_vacant (cs : RouteChains) (host : Host) (home : Option Session.RingHome) :
    (vacant cs host home).Follows cs where
  consistent := fun _ => rfl
  seats := by
    intro i
    cases i with
    | render u => exact ⟨.mediaRender .isPublic, (StreamIntent.role_render u).symm, rfl⟩
    | capture t => exact ⟨.mediaCapture .isPublic, (StreamIntent.role_capture t).symm, rfl⟩
  numbered := fun id session hs => by cases hs
  board :=
    { chains := rfl
      bound := fun id e hget => by cases hget
      placed := fun id e hget => by cases hget }

end Station

/-- Routing converges. On every run in which only the switchboard binds devices, whenever no
change is left to handle, each registered session is routed as the connected devices want it and,
as long as it lives, bound to the device it was routed to. -/
theorem routes_converge {names : ChainNames} {cs : RouteChains}
    (h : RouteChains.ofNames RouteRule.builtIn names = .ok cs) (host : Host)
    (home : Option Session.RingHome) {steps : List StationStep}
    (hsteps : ∀ t ∈ steps, ¬ t.binds) :
    let s := (Station.vacant cs host home).run steps
    s.changes = [] → ∀ id e, s.board.entries.get? id = some e →
      e.decision.device.SamePlace (cs.route s.roster e.intent e.uid) ∧
        ∃ session, s.registry.any? id = some session ∧ session.intent = e.intent ∧
          session.config.uid = e.uid ∧
          (¬ session.isTerminal → session.device = e.decision.device) := by
  intro s hhandled id e hget
  have hfollows := (Station.follows_vacant cs host home).run
    (fun c rule hrule => RouteChains.mem_known_of_mem_chain h hrule) hsteps
  refine ⟨?_, hfollows.board.bound id e hget⟩
  rcases hfollows.board.placed id e hget with ⟨c, hc, -⟩ | hplaced
  · rw [hhandled] at hc
    cases hc
  · exact hplaced

theorem music_returns_to_speaker :
    ∃ cs, RouteChains.ofNames RouteRule.builtIn {} = .ok cs ∧
      let speaker : Device := { type := .speaker, role := .output, connectedAt := 1 }
      let headset : Device := { type := .wiredHeadset, role := .output, connectedAt := 2 }
      let steps : List StationStep :=
        [.sessions (.create ⟨.render .music, {}, 1000, 16, 4⟩), .register 1,
          .devices (.connect 1 speaker), .devices (.connect 2 headset), .change,
          .devices (.disconnect headset), .change, .change]
      let s := (Station.vacant cs {} none).run steps
      (∀ t ∈ steps, ¬ t.binds) ∧ s.changes = [] ∧
        s.board.entries.get? 1 = some ⟨.render .music, 1000, ⟨speaker, 2⟩⟩ ∧
        speaker.SamePlace (cs.route s.roster (.render .music) 1000) := by
  have hnames : RouteChains.ofNames RouteRule.builtIn {} = .ok _ := rfl
  refine ⟨_, hnames, ?_⟩
  intro speaker headset steps s
  have hsteps : ∀ t ∈ steps, ¬ t.binds := by decide
  have hchanges : s.changes = [] := by decide +kernel
  have hentry : s.board.entries.get? 1 = some ⟨.render .music, 1000, ⟨speaker, 2⟩⟩ := by
    decide +kernel
  exact ⟨hsteps, hchanges, hentry,
    (routes_converge hnames {} none hsteps hchanges 1 _ hentry).1⟩

end Patchbay
