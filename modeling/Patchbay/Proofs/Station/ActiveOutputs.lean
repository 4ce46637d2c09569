import Patchbay.Proofs.Device.ChangeLog
import Patchbay.Proofs.Route.Orders
import Patchbay.Proofs.Route.Privacy
import Patchbay.Proofs.Station.Runs

/-!
# The active output

The switchboard remembers the output that it handed out last, and looks for another one when it
hears that this one was disconnected. So once all changes are handled it remembers an endpoint
that is connected, or none. It does not look for another one when the endpoint comes back in
another role, although the sessions leave it then.
-/
namespace Patchbay

/-- The mutations of the device set in a step. -/
def StationStep.mutations : StationStep → List RosterStep
  | .devices t => [t]
  | .sessions _ | .register _ | .unregister _ | .change | .event => []

/-- What can come to pass by these mutations when the entries of the switchboard change their
order at any time. -/
inductive Station.Passes (s : Station) : List RosterStep → Station → Prop where
  | refl : Passes s [] s
  | step {mutations : List RosterStep} {s' : Station} (h : Passes s mutations s')
      (t : StationStep) : Passes s (mutations ++ t.mutations) (s'.step t)
  | reorder {mutations : List RosterStep} {s' : Station} (h : Passes s mutations s')
      (order : Table Nat RouteEntry) (perm : order.Perm s'.board.entries) :
      Passes s mutations { s' with board := { s'.board with entries := order } }

namespace RosterStep

/-- The role in which an endpoint was connected last. -/
def lastRole? (e : Device) : List RosterStep → Option DeviceRole
  | [] => none
  | connect _ d :: later =>
    (lastRole? e later).or (if d.sameEndpoint e then some d.role else none)
  | disconnect _ :: later => lastRole? e later

/-- An endpoint is connected in one role only. -/
def KeepRoles (mutations : List RosterStep) : Prop :=
  ∀ now d now' d', connect now d ∈ mutations → connect now' d' ∈ mutations →
    d.sameEndpoint d' → d.role = d'.role

end RosterStep

/-- There is an output to hand out, or none. -/
def Roster.Offers (r : Roster) (d : Device) : Prop :=
  d = Device.none ∨ d ∈ r.connected ∧ d.role = .output

variable {r : Roster} {d e : Device} {mutations : List RosterStep}

namespace RosterStep

theorem lastRole?_congr (h : d.sameEndpoint e) (mutations : List RosterStep) :
    lastRole? d mutations = lastRole? e mutations := by
  induction mutations with
  | nil => rfl
  | cons t later ih =>
      cases t with
      | connect now f => rw [lastRole?, lastRole?, ih, Device.sameEndpoint_congr h]
      | disconnect f => exact ih

theorem lastRole?_eq_none (h : ∀ t ∈ mutations, ¬ t.device.sameEndpoint e) :
    lastRole? e mutations = none := by
  induction mutations with
  | nil => rfl
  | cons t later ih =>
      obtain ⟨hfirst, hlater⟩ := List.forall_mem_cons.mp h
      cases t with
      | connect now f =>
          have hother : ¬ f.sameEndpoint e := hfirst
          rw [lastRole?, ih hlater, if_neg hother]
          rfl
      | disconnect f => exact ih hlater

theorem connect_of_lastRole? {role : DeviceRole} (h : lastRole? e mutations = some role) :
    ∃ now d, connect now d ∈ mutations ∧ d.sameEndpoint e ∧ d.role = role := by
  induction mutations with
  | nil => cases h
  | cons t later ih =>
      have hlater : lastRole? e later = some role →
          ∃ now d, connect now d ∈ t :: later ∧ d.sameEndpoint e ∧ d.role = role := by
        intro h
        obtain ⟨now, d, hmem, hrest⟩ := ih h
        exact ⟨now, d, List.mem_cons_of_mem _ hmem, hrest⟩
      cases t with
      | connect now f =>
          rw [lastRole?, Option.or_eq_some_iff] at h
          rcases h with h | ⟨-, h⟩
          · exact hlater h
          · split at h
            · rename_i hsame
              exact ⟨now, f, List.mem_cons_self, hsame, Option.some.inj h⟩
            · cases h
      | disconnect f => exact hlater h

end RosterStep

namespace Roster

theorem lastRole?_of_standing (h : d ∈ r.standing mutations) :
    RosterStep.lastRole? d mutations = some d.role := by
  induction mutations with
  | nil => cases h
  | cons t later ih =>
      rw [standing, List.mem_append] at h
      cases t with
      | connect now f =>
          rw [RosterStep.lastRole?]
          rcases h with harrived | hlater
          · obtain ⟨hd, hlast⟩ := List.mem_filter.mp harrived
            have hsame : f.sameEndpoint d := Device.sameEndpoint_symm (sameEndpoint_of_arrived hd)
            rw [RosterStep.arrived, List.mem_singleton] at hd
            rw [Bool.not_eq_true', List.any_eq_false] at hlast
            rw [RosterStep.lastRole?_eq_none hlast, if_pos hsame, hd, role_stamp]
            rfl
          · rw [ih hlater]
            rfl
      | disconnect f =>
          rcases h with harrived | hlater
          · cases harrived
          · exact ih hlater

end Roster

namespace Switchboard

variable {b : Switchboard} {reg : Registry} {w : Sweep} {p : Nat × RouteEntry}

theorem route_offers {cs : RouteChains} {i : StreamIntent} {uid : Int32} (h : r.Consistent)
    (hchain : ∀ c, ∀ rule ∈ cs.chain c, rule ∈ RouteRule.builtIn) (hrole : i.role = .output) :
    r.Offers (cs.route r i uid) :=
  (route_connected h (hchain _)).imp id fun hroute => ⟨hroute.1, hroute.2.trans hrole⟩

theorem handsOut?_offers (h : r.Consistent)
    (hchain : ∀ c, ∀ rule ∈ b.chains.chain c, rule ∈ RouteRule.builtIn)
    (hd : b.handsOut? r reg change p = some d) : r.Offers d := by
  unfold handsOut? target? at hd
  dsimp only at hd
  split at hd
  · cases hd
  · rename_i target htarget
    split at hd
    · rename_i hgiven
      split at htarget
      · cases htarget
      · simp only [Bool.and_eq_true, decide_eq_true_eq] at hgiven
        rw [← Option.some.inj hd, ← Option.some.inj htarget]
        exact route_offers h hchain hgiven.1.2
    · cases hd

/-- What is remembered in a sweep was remembered before or is handed out. -/
theorem activeOutput_foldl_visit (h : r.Consistent)
    (hchain : ∀ c, ∀ rule ∈ w.board.chains.chain c, rule ∈ RouteRule.builtIn)
    (change : DeviceChange) (order : List (Nat × RouteEntry)) :
    (order.foldl (Sweep.visit r change) w).board.activeOutput = w.board.activeOutput ∨
      r.Offers (order.foldl (Sweep.visit r change) w).board.activeOutput := by
  induction order generalizing w with
  | nil => exact .inl rfl
  | cons p rest ih =>
      have hlater := ih (w := w.visit r change p) (by rwa [w.chains_visit])
      rw [(w.visit_fates r change p).1] at hlater
      rw [List.foldl_cons]
      refine hlater.elim (fun hkept => ?_) .inr
      rw [hkept]
      cases hhands : w.board.handsOut? r w.registry change p with
      | none => exact .inl rfl
      | some d => exact .inr (handsOut?_offers h hchain hhands)

/-- An output that is still remembered after a change did not go with it. -/
theorem handleChange_outputs (h : r.Consistent)
    (hchain : ∀ c, ∀ rule ∈ b.chains.chain c, rule ∈ RouteRule.builtIn) (reg : Registry)
    (change : DeviceChange) :
    let b' := (b.handleChange r reg change).2.1
    b'.chains = b.chains ∧
      (r.Offers b'.activeOutput ∨ b'.activeOutput = b.activeOutput ∧
        ¬ (change.kind = .disconnected ∧ b.activeOutput.sameEndpoint change.device)) := by
  have houtput := activeOutput_foldl_visit (w := { board := b, registry := reg }) h hchain change
    b.entries.toList
  have hchains := Sweep.chains_foldl r change { board := b, registry := reg } b.entries.toList
  unfold handleChange
  dsimp only at houtput hchains ⊢
  -- The sweep hands out, the tearing down does not, and what is left then may have gone.
  generalize b.entries.toList.foldl (Sweep.visit r change) { board := b, registry := reg } = w at *
  have hdown := (foldl_tearDown w.board w.dead).1.trans hchains
  rw [← activeOutput_foldl_tearDown w.board w.dead] at houtput
  dsimp only at hdown
  generalize w.dead.foldl (fun b p => b.tearDown p.1 p.2) w.board = b' at *
  split
  · refine ⟨hdown, .inl ?_⟩
    dsimp only
    rw [hdown]
    exact route_offers h hchain rfl
  · rename_i hgone
    rw [Bool.and_eq_true, decide_eq_true_eq] at hgone
    refine ⟨hdown, houtput.symm.imp id fun hkept => ⟨hkept, ?_⟩⟩
    rwa [← hkept]

theorem register_outputs (h : r.Consistent)
    (hchain : ∀ c, ∀ rule ∈ b.chains.chain c, rule ∈ RouteRule.builtIn) (reg : Registry)
    (s : Session) :
    let b' := (b.register r reg s).2.1
    b'.chains = b.chains ∧ (b'.activeOutput = b.activeOutput ∨ r.Offers b'.activeOutput) := by
  unfold register
  split
  · exact ⟨rfl, .inl rfl⟩
  · dsimp only
    split
    · exact ⟨rfl, .inl rfl⟩
    · dsimp only
      refine ⟨chains_noteOutput _ _ _, ?_⟩
      unfold noteOutput
      split
      · rename_i hgiven
        simp only [Bool.and_eq_true, decide_eq_true_eq] at hgiven
        exact .inr (route_offers h hchain hgiven.1)
      · exact .inl rfl

end Switchboard

/-- What a station that began with the roster `start` keeps through these mutations: the output
that it remembers was once connected as one, and is so still or a disconnection of its endpoint is
to be handled. -/
structure Station.Remembers (s : Station) (cs : RouteChains) (start : Roster)
    (mutations : List RosterStep) : Prop where
  chains : s.board.chains = cs
  roster : s.roster = start.run mutations
  there : s.board.activeOutput = Device.none ∨
    (∃ d ∈ s.roster.connected, d.sameEndpoint s.board.activeOutput) ∨
    ∃ c ∈ s.changes, c.kind = .disconnected ∧ s.board.activeOutput.sameEndpoint c.device
  given : s.board.activeOutput = Device.none ∨ s.board.activeOutput.role = .output ∧
    ∃ now d, .connect now d ∈ mutations ∧ d.sameEndpoint s.board.activeOutput ∧ d.role = .output

namespace Station

variable {s s' : Station} {cs : RouteChains} {table : PrivacyTable} {render capture : DeviceType}

theorem Remembers.consistent (h : s.Remembers cs (.vacant table render capture) mutations) :
    s.roster.Consistent := by
  rw [h.roster]
  exact (Roster.consistent_vacant table render capture).run mutations

theorem Remembers.lastRole? (h : s.Remembers cs (.vacant table render capture) mutations)
    (hd : d ∈ s.roster.connected) : RosterStep.lastRole? d mutations = some d.role := by
  rw [h.roster, Roster.connected_run] at hd
  exact Roster.lastRole?_of_standing hd

theorem Remembers.hands (h : s.Remembers cs (.vacant table render capture) mutations)
    (hchains : s'.board.chains = s.board.chains) (hroster : s'.roster = s.roster)
    (hoffers : s.roster.Offers s'.board.activeOutput) :
    s'.Remembers cs (.vacant table render capture) mutations where
  chains := hchains.trans h.chains
  roster := hroster.trans h.roster
  there := by
    refine hoffers.imp id fun hgiven => .inl ⟨_, ?_, Device.sameEndpoint_refl _⟩
    rw [hroster]
    exact hgiven.1
  given := by
    refine hoffers.imp id fun hgiven => ⟨hgiven.2, ?_⟩
    have hlast := h.lastRole? hgiven.1
    rw [hgiven.2] at hlast
    exact RosterStep.connect_of_lastRole? hlast

theorem Remembers.keeps {start : Roster} (h : s.Remembers cs start mutations)
    (hchains : s'.board.chains = s.board.chains) (hroster : s'.roster = s.roster)
    (houtput : s'.board.activeOutput = s.board.activeOutput)
    (hchanges : ∀ c ∈ s.changes, c.kind = .disconnected →
      s.board.activeOutput.sameEndpoint c.device → c ∈ s'.changes) :
    s'.Remembers cs start mutations where
  chains := hchains.trans h.chains
  roster := hroster.trans h.roster
  there := by
    rw [houtput, hroster]
    refine h.there.imp id (Or.imp id fun hpending => ?_)
    obtain ⟨c, hc, hkind, hsame⟩ := hpending
    exact ⟨c, hchanges c hc hkind hsame, hkind, hsame⟩
  given := houtput ▸ h.given

/-- An endpoint stays connected, or its disconnection is published. -/
theorem connected_or_published (hd : d ∈ r.connected) (t : RosterStep) :
    (∃ e ∈ (r.step t).2.connected, e.sameEndpoint d) ∨
      ∃ c, (r.step t).1 = some c ∧ c.kind = .disconnected ∧ d.sameEndpoint c.device := by
  by_cases hsame : d.sameEndpoint t.device
  · cases t with
    | connect now e =>
        refine .inl ⟨r.stamp now e, ?_, ?_⟩
        · rw [Roster.connected_step]
          exact List.mem_append_right _ (List.mem_singleton_self _)
        · exact Device.sameEndpoint_trans (r.sameEndpoint_stamp now e)
            (Device.sameEndpoint_symm hsame)
    | disconnect e =>
        cases hfind : r.connected.find? (·.sameEndpoint e) with
        | none =>
            rw [List.find?_eq_none] at hfind
            exact absurd hsame (hfind d hd)
        | some known =>
            have hknown : known.sameEndpoint e := by simpa using List.find?_some hfind
            exact .inr ⟨_, (Roster.disconnect_publishes hfind).1, rfl,
              Device.sameEndpoint_trans hsame (Device.sameEndpoint_symm hknown)⟩
  · refine .inl ⟨d, ?_, d.sameEndpoint_refl⟩
    rw [Roster.connected_step]
    exact List.mem_append_left _ (List.mem_filter.mpr ⟨hd, by simpa using hsame⟩)

theorem Remembers.devices {start : Roster} (h : s.Remembers cs start mutations)
    (t : RosterStep) : (s.step (.devices t)).Remembers cs start (mutations ++ [t]) := by
  rw [step_devices]
  exact {
    chains := h.chains
    roster := by
      show (s.roster.step t).2 = start.run (mutations ++ [t])
      rw [h.roster, Roster.run, Roster.run, List.foldl_append]
      rfl
    there := by
      refine h.there.imp id fun hthere => ?_
      rcases hthere with ⟨d, hd, hsame⟩ | ⟨c, hc, hpending⟩
      · rcases connected_or_published hd t with ⟨e, he, hkept⟩ | ⟨c, hc, hkind, hgone⟩
        · exact .inl ⟨e, he, Device.sameEndpoint_trans hkept hsame⟩
        · refine .inr ⟨c, List.mem_append_right _ ?_, hkind,
            Device.sameEndpoint_trans (Device.sameEndpoint_symm hsame) hgone⟩
          rw [hc]
          exact List.mem_singleton_self c
      · exact .inr ⟨c, List.mem_append_left _ hc, hpending⟩
    given := by
      refine h.given.imp id fun hgiven => ⟨hgiven.1, ?_⟩
      obtain ⟨now, d, hmem, hrest⟩ := hgiven.2
      exact ⟨now, d, List.mem_append_left _ hmem, hrest⟩ }

theorem Remembers.change (h : s.Remembers cs (.vacant table render capture) mutations)
    (hchain : ∀ c, ∀ rule ∈ cs.chain c, rule ∈ RouteRule.builtIn) :
    (s.step .change).Remembers cs (.vacant table render capture) mutations := by
  rw [← h.chains] at hchain
  show s.nextChange.2.Remembers cs _ mutations
  unfold nextChange
  split
  · exact h
  · rename_i change later hchanges
    obtain ⟨hchains, houtput⟩ :=
      Switchboard.handleChange_outputs h.consistent hchain s.registry change
    rcases houtput with hoffers | ⟨hkept, hstays⟩
    · exact h.hands hchains rfl hoffers
    · refine h.keeps hchains rfl hkept fun c hc hkind hsame => ?_
      rw [hchanges] at hc
      rcases List.mem_cons.mp hc with rfl | hc
      · exact absurd ⟨hkind, hsame⟩ hstays
      · exact hc

theorem Remembers.register (h : s.Remembers cs (.vacant table render capture) mutations)
    (hchain : ∀ c, ∀ rule ∈ cs.chain c, rule ∈ RouteRule.builtIn) (id : Nat) :
    (s.step (.register id)).Remembers cs (.vacant table render capture) mutations := by
  rw [← h.chains] at hchain
  unfold Station.step
  dsimp only
  split
  · rename_i session hs
    obtain ⟨hchains, hkept | hoffers⟩ :=
      Switchboard.register_outputs h.consistent hchain s.registry session
    · exact h.keeps hchains rfl hkept fun c hc _ _ => hc
    · exact h.hands hchains rfl hoffers
  · exact h

theorem Remembers.step (h : s.Remembers cs (.vacant table render capture) mutations)
    (hchain : ∀ c, ∀ rule ∈ cs.chain c, rule ∈ RouteRule.builtIn) (t : StationStep) :
    (s.step t).Remembers cs (.vacant table render capture) (mutations ++ t.mutations) := by
  cases t with
  | devices t => exact h.devices t
  | sessions t =>
      rw [StationStep.mutations, List.append_nil]
      exact { h with }
  | register id =>
      rw [StationStep.mutations, List.append_nil]
      exact h.register hchain id
  | unregister id =>
      rw [StationStep.mutations, List.append_nil]
      have hkept : (s.board.unregister id).2.chains = s.board.chains ∧
          (s.board.unregister id).2.activeOutput = s.board.activeOutput := by
        unfold Switchboard.unregister
        split <;> exact ⟨rfl, rfl⟩
      exact h.keeps hkept.1 rfl hkept.2 fun c hc _ _ => hc
  | change =>
      rw [StationStep.mutations, List.append_nil]
      exact h.change hchain
  | event =>
      rw [StationStep.mutations, List.append_nil]
      show s.nextEvent.2.Remembers cs _ mutations
      unfold nextEvent note Switchboard.handleEvent
      split
      · exact h
      · dsimp only
        split <;> exact { h with }

theorem Passes.remembers (h : s.Passes mutations s')
    (hs : s.Remembers cs (.vacant table render capture) [])
    (hchain : ∀ c, ∀ rule ∈ cs.chain c, rule ∈ RouteRule.builtIn) :
    s'.Remembers cs (.vacant table render capture) mutations := by
  induction h with
  | refl => exact hs
  | step _ t ih => exact ih.step hchain t
  | reorder _ order perm ih => exact { ih with }

theorem Passes.run (h : s.Passes mutations s') (steps : List StationStep) :
    s.Passes (mutations ++ steps.flatMap (·.mutations)) (s'.run steps) := by
  induction steps generalizing mutations s' with
  | nil => simpa [run] using h
  | cons t later ih =>
      rw [List.flatMap_cons, ← List.append_assoc]
      exact ih (h.step t)

theorem remembers_vacant (cs : RouteChains) (host : Host) (home : Option Session.RingHome)
    (table : PrivacyTable) (render capture : DeviceType) :
    Remembers { vacant cs host home with roster := .vacant table render capture } cs
      (.vacant table render capture) [] where
  chains := rfl
  roster := rfl
  there := .inl rfl
  given := .inl rfl

end Station

/-- Once all changes are handled the active output is the sentinel or the endpoint of a connected
device, after any run, in any order of the sessions. It is connected as an output unless its
endpoint came back in another role after it was handed out, so it always is where no endpoint
changes its role. -/
theorem active_output_connected_unless_turned {names : ChainNames} {cs : RouteChains}
    (h : RouteChains.ofNames RouteRule.builtIn names = .ok cs) (host : Host)
    (home : Option Session.RingHome) (table : PrivacyTable) (render capture : DeviceType)
    {mutations : List RosterStep} {s : Station}
    (hpasses : Station.Passes
      { Station.vacant cs host home with roster := .vacant table render capture } mutations s)
    (hhandled : s.changes = []) :
    let a := s.board.activeOutput
    let connectedOutput := ∃ d ∈ s.roster.connected, d.sameEndpoint a ∧ d.role = .output
    (a = Device.none ∨ ∃ d ∈ s.roster.connected, d.sameEndpoint a) ∧
      (a = Device.none ∨ a.role = .output ∧
        ∃ now d, .connect now d ∈ mutations ∧ d.sameEndpoint a ∧ d.role = .output) ∧
      (a = Device.none ∨ connectedOutput ↔
        a = Device.none ∨ RosterStep.lastRole? a mutations = some .output) ∧
      (RosterStep.KeepRoles mutations → a = Device.none ∨ connectedOutput) := by
  intro a connectedOutput
  have hremembers := hpasses.remembers
    (Station.remembers_vacant cs host home table render capture)
    (fun c rule hrule => RouteChains.mem_known_of_mem_chain h hrule)
  have hlast : ∀ d ∈ s.roster.connected, d.sameEndpoint a →
      RosterStep.lastRole? a mutations = some d.role := by
    intro d hd hsame
    rw [← RosterStep.lastRole?_congr hsame]
    exact hremembers.lastRole? hd
  have hthere : a = Device.none ∨ ∃ d ∈ s.roster.connected, d.sameEndpoint a := by
    refine hremembers.there.imp id fun hthere => hthere.elim id fun hpending => ?_
    obtain ⟨c, hc, -⟩ := hpending
    rw [hhandled] at hc
    cases hc
  have hiff : a = Device.none ∨ connectedOutput ↔
      a = Device.none ∨ RosterStep.lastRole? a mutations = some .output := by
    constructor
    · refine Or.imp id fun hconnected => ?_
      obtain ⟨d, hd, hsame, hrole⟩ := hconnected
      exact (hlast d hd hsame).trans (congrArg some hrole)
    · rintro (hnone | hrole)
      · exact .inl hnone
      · refine hthere.imp id fun hconnected => ?_
        obtain ⟨d, hd, hsame⟩ := hconnected
        exact ⟨d, hd, hsame, Option.some.inj ((hlast d hd hsame).symm.trans hrole)⟩
  refine ⟨hthere, hremembers.given, hiff, fun hroles => ?_⟩
  rcases hthere with hnone | ⟨d, hd, hsame⟩
  · exact .inl hnone
  · refine hremembers.given.imp id fun hgiven => ?_
    obtain ⟨-, now, e, hconnect, hsame', hrole⟩ := hgiven
    obtain ⟨now', f, hconnect', hsame'', hrole'⟩ :=
      RosterStep.connect_of_lastRole? (hlast d hd hsame)
    have hroles := hroles now e now' f hconnect hconnect'
      (Device.sameEndpoint_trans hsame' (Device.sameEndpoint_symm hsame''))
    exact ⟨d, hd, hsame, hrole'.symm.trans (hroles.symm.trans hrole)⟩

theorem speaker_active_once_headset_gone :
    ∃ cs, RouteChains.ofNames RouteRule.builtIn {} = .ok cs ∧
      let speaker : Device := { type := .speaker, role := .output, connectedAt := 1 }
      let headset : Device := { type := .wiredHeadset, role := .output, connectedAt := 2 }
      let steps : List StationStep :=
        [.sessions (.create ⟨.render .music, {}, 1000, 16, 4⟩), .register 1,
          .devices (.connect 1 speaker), .devices (.connect 2 headset), .change,
          .devices (.disconnect headset), .change, .change]
      let mutations := steps.flatMap (·.mutations)
      let start : Station :=
        { Station.vacant cs {} none with roster := .vacant .builtIn .speaker .mic }
      let s := start.run steps
      Station.Passes start mutations s ∧ s.changes = [] ∧ RosterStep.KeepRoles mutations ∧
        s.board.activeOutput = speaker ∧
        ∃ d ∈ s.roster.connected, d.sameEndpoint speaker ∧ d.role = .output := by
  have hnames : RouteChains.ofNames RouteRule.builtIn {} = .ok _ := rfl
  refine ⟨_, hnames, ?_⟩
  intro speaker headset steps mutations start s
  have hpasses : Station.Passes start mutations s := Station.Passes.refl.run steps
  have hhandled : s.changes = [] := by decide +kernel
  have houtputs : ∀ now d, .connect now d ∈ mutations → d.role = .output := by
    intro now d hd
    have hmutations : mutations =
        [.connect 1 speaker, .connect 2 headset, .disconnect headset] := rfl
    rw [hmutations] at hd
    simp only [List.mem_cons, RosterStep.connect.injEq, List.not_mem_nil, or_false] at hd
    rcases hd with ⟨-, rfl⟩ | ⟨-, rfl⟩ | hd
    · rfl
    · rfl
    · cases hd
  have hroles : RosterStep.KeepRoles mutations :=
    fun now d now' d' hd hd' _ => (houtputs now d hd).trans (houtputs now' d' hd').symm
  have hactive : s.board.activeOutput = speaker := by decide +kernel
  obtain ⟨-, -, -, hconnected⟩ := active_output_connected_unless_turned hnames {} none .builtIn
    .speaker .mic hpasses hhandled
  rw [hactive] at hconnected
  exact ⟨hpasses, hhandled, hroles, hactive, (hconnected hroles).resolve_left (by decide)⟩

/-- A headset that comes back as a microphone loses its session and stays the active output. -/
theorem turned_headset_stays_active_output :
    ∃ cs, RouteChains.ofNames RouteRule.builtIn {} = .ok cs ∧
      let headset : Device := { type := .wiredHeadset, role := .output, connectedAt := 1 }
      let turned : Device := { headset with role := .input, connectedAt := 2 }
      let steps : List StationStep :=
        [.sessions (.create ⟨.render .music, {}, 1000, 16, 4⟩), .devices (.connect 1 headset),
          .change, .register 1, .devices (.connect 2 turned), .change]
      let start : Station :=
        { Station.vacant cs {} none with roster := .vacant .builtIn .speaker .mic }
      let s := start.run steps
      Station.Passes start (steps.flatMap (·.mutations)) s ∧ s.changes = [] ∧
        s.roster.connected.map (fun d => (d.type, d.role)) = [(.wiredHeadset, .input)] ∧
        (s.board.decision? 1).map (·.device) = some Device.none ∧
        ¬ (s.board.activeOutput = Device.none ∨ ∃ d ∈ s.roster.connected,
          d.sameEndpoint s.board.activeOutput ∧ d.role = .output) := by
  refine ⟨_, rfl, ?_⟩
  intro headset turned steps start s
  refine ⟨Station.Passes.refl.run steps, ?_, ?_, ?_, ?_⟩ <;> decide +kernel

end Patchbay
