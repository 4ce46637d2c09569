import Patchbay.Proofs.Route.Subscriptions
import Patchbay.Proofs.Station.Runs

/-!
# What owners are told over whole runs

Device changes and the ends of sessions are handled as late as one likes and in any order of the
two queues, while owners read their inboxes when they like. Whatever happens, what the owner of
a registered session has been told is a journey from the device of the registration, and if the
session ended, one word of that.
-/
namespace Patchbay

/-- A station that has not seen a session yet. -/
structure Station.Unused (s : Station) : Prop where
  registry : s.registry =
    { host := s.registry.host, home := s.registry.home, files := s.registry.files }
  board : s.board = { chains := s.board.chains, activeOutput := s.board.activeOutput }

/-- A station, and what was read from its inboxes since one began to count. -/
structure Audience where
  station : Station
  heard : Nat → List SessionNotice := fun _ => []

inductive AudienceStep where
  | station (t : StationStep)
  /-- The reader of an inbox takes what waits there. -/
  | read (box : Nat)
  /-- The reader of an inbox goes. -/
  | close (box : Nat)

namespace Station

/-- Puts a changed notice board into place. -/
def withNotices (s : Station) (b : NoticeBoard) : Station :=
  { s with board := { s.board with board := b } }

/-- What every step preserves. -/
structure Attended (s : Station) : Prop where
  numbered : s.registry.Numbered
  heard : s.registry.Heard
  board : s.board.Orderly s.registry

end Station

namespace Audience

def step (a : Audience) : AudienceStep → Audience
  | .station t => { a with station := a.station.step t }
  | .read box =>
    let (notices, board) := a.station.board.board.take box
    { station := a.station.withNotices board
      heard := fun i => if box = i then a.heard i ++ notices else a.heard i }
  | .close box => { a with station := a.station.withNotices (a.station.board.board.close box) }

def run (a : Audience) (steps : List AudienceStep) : Audience :=
  steps.foldl step a

/-- All that was told through an inbox, whether it was read or still waits. -/
def told (a : Audience) (box : Nat) : List SessionNotice :=
  a.heard box ++ a.station.board.board.waiting box

theorem run_append (a : Audience) (steps more : List AudienceStep) :
    a.run (steps ++ more) = (a.run steps).run more :=
  List.foldl_append

end Audience

namespace Station

variable {s : Station} {id box : Nat} {start : Device} {heard : List SessionNotice} {gone : Prop}

theorem Unused.attended (h : s.Unused) : s.Attended := by
  obtain ⟨hregistry, hboard⟩ := h
  constructor
  · rw [hregistry]
    exact fun id session hs => by cases hs
  · rw [hregistry]
    exact fun id session hs => by cases hs
  · rw [hboard]
    exact { Switchboard.orderly_empty s.board.chains s.registry with }

theorem Unused.connect (h : s.Unused) (now : UInt64) (d : Device) : (s.connect now d).2.Unused :=
  ⟨h.registry, h.board⟩

theorem Unused.settle (h : s.Unused) : s.settle.Unused := by
  have hentries : s.board.entries = ∅ := by rw [h.board]
  have hevents : s.registry.events = [] := by rw [h.registry]
  obtain ⟨d, hall⟩ :=
    Switchboard.handleAll_of_no_entries hentries s.roster s.registry s.changes
  unfold Station.settle handleChanges handleEvents Registry.takeEvents
  rw [hall]
  dsimp only
  rw [hevents]
  constructor
  · dsimp only [List.foldl_nil]
    rw [h.registry]
  · dsimp only [List.foldl_nil]
    rw [h.board]

theorem unused_ofSettings {known : List RouteRule} {now : UInt64} {home : Option Session.RingHome}
    {settings : Settings} (h : ofSettings known now home settings = .ok s) : s.Unused :=
  ofSettings_induction h (fun _ => ⟨rfl, rfl⟩) fun _ d hst => hst.connect now d

theorem step_register (hr : s.registry.Numbered) (id : Nat) :
    s.step (.register id) = s ∨ ∃ session, s.registry.any? session.id = some session ∧
      session.id = id ∧ s.step (.register id) = (s.register session).2 := by
  unfold Station.step
  dsimp only
  split
  · rename_i session hs
    obtain ⟨rfl, -⟩ := hr id session hs
    exact Or.inr ⟨session, hs, rfl, rfl⟩
  · exact Or.inl rfl

theorem Attended.step (h : s.Attended) (t : StationStep) : (s.step t).Attended := by
  cases t with
  | devices t => cases t <;> exact { h with }
  | sessions t =>
      obtain ⟨hnumbered, hheard, hannounces⟩ := s.registry.step_tells h.numbered h.heard t
      exact ⟨hnumbered, hheard, h.board.announces hannounces⟩
  | register id =>
      rcases s.step_register h.numbered id with hsame | ⟨session, hs, -, hstep⟩
      · rw [hsame]
        exact h
      · rw [hstep]
        obtain ⟨hboard, hregistry⟩ := h.board.register h.numbered hs s.roster
        obtain ⟨hnumbered, hheard, -⟩ := hregistry.tells h.numbered h.heard
        exact ⟨hnumbered, hheard, hboard⟩
  | unregister id => exact ⟨h.numbered, h.heard, h.board.unregister id⟩
  | change =>
      show s.nextChange.2.Attended
      unfold nextChange
      split
      · exact h
      · rename_i change later hchanges
        obtain ⟨hnumbered, hheard, -⟩ :=
          (s.board.handleChange_goesOn h.numbered s.roster change).tells
            h.numbered h.heard
        exact ⟨hnumbered, hheard, h.board.handleChange h.numbered s.roster change⟩
  | event =>
      show s.nextEvent.2.Attended
      unfold nextEvent
      split
      · exact h
      · rename_i event later hevents
        exact ⟨h.numbered, h.heard, h.board.handleEvent hevents⟩

theorem Attended.stands (h : s.Attended) (hstands : s.board.Stands id box start heard gone)
    (t : StationStep) :
    (s.step t).board.Stands id box start heard (gone ∨ t = .unregister id) := by
  cases t with
  | devices t => cases t <;> exact hstands.mono Or.inl
  | sessions t => exact hstands.mono Or.inl
  | register id' =>
      rcases s.step_register h.numbered id' with hsame | ⟨session, -, -, hstep⟩
      · rw [hsame]
        exact hstands.mono Or.inl
      · rw [hstep]
        exact (hstands.register h.board.board s.roster s.registry session).mono Or.inl
  | unregister id' =>
      exact (hstands.unregister h.board.board id').mono (Or.imp_right fun hsame => by rw [hsame])
  | change =>
      refine Switchboard.Stands.mono ?_ Or.inl
      show s.nextChange.2.board.Stands id box start heard gone
      unfold nextChange
      split
      · exact hstands
      · exact hstands.handleChange h.board h.numbered s.roster _
  | event =>
      refine Switchboard.Stands.mono ?_ Or.inl
      show s.nextEvent.2.board.Stands id box start heard gone
      unfold nextEvent
      split
      · exact hstands
      · exact hstands.handleEvent h.board.board _

theorem Attended.prefix_step (h : s.Attended) (t : StationStep) (box : Nat) :
    s.board.board.waiting box <+: (s.step t).board.board.waiting box := by
  cases t with
  | devices t => cases t <;> exact List.prefix_refl _
  | sessions t => exact List.prefix_refl _
  | register id =>
      rcases s.step_register h.numbered id with hsame | ⟨session, -, -, hstep⟩
      · rw [hsame]
      · rw [hstep]
        exact s.board.waiting_prefix_register s.roster s.registry session box
  | unregister id =>
      show _ <+: (s.board.unregister id).2.board.waiting box
      rw [Switchboard.waiting_unregister]
  | change =>
      show _ <+: s.nextChange.2.board.board.waiting box
      unfold nextChange
      split
      · exact List.prefix_refl _
      · exact Switchboard.waiting_prefix_handleChange h.numbered s.roster _ box
  | event =>
      show _ <+: s.nextEvent.2.board.board.waiting box
      unfold nextEvent
      split
      · exact List.prefix_refl _
      · exact s.board.waiting_prefix_handleEvent _ box

theorem Attended.spares (h : s.Attended) (hretired : s.board.board.Retired box)
    (t : StationStep) : s.board.board.Spares (s.step t).board.board box := by
  cases t with
  | devices t => cases t <;> exact .refl _ _
  | sessions t => exact .refl _ _
  | register id =>
      rcases s.step_register h.numbered id with hsame | ⟨session, -, -, hstep⟩
      · rw [hsame]
        exact .refl _ _
      · rw [hstep]
        exact Switchboard.register_spares hretired.made (hretired.unserved _) s.roster s.registry
  | unregister id => exact Switchboard.unregister_spares (hretired.unserved id)
  | change =>
      show NoticeBoard.Spares _ s.nextChange.2.board.board box
      unfold nextChange
      split
      · exact .refl _ _
      · exact Switchboard.handleChange_spares hretired h.numbered s.roster _
  | event =>
      show NoticeBoard.Spares _ s.nextEvent.2.board.board box
      unfold nextEvent
      split
      · exact .refl _ _
      · exact Switchboard.handleEvent_spares (hretired.unserved _)

end Station

namespace Audience
open Switchboard (Stands)

variable {a : Audience} {id box : Nat} {start : Device} {gone : Prop}
variable {steps : List AudienceStep}

theorem attended_withNotices {s : Station} (h : s.Attended) {b : NoticeBoard}
    (hreaders : b.readers = s.board.board.readers)
    (hlength : b.boxes.length = s.board.board.boxes.length) : (s.withNotices b).Attended where
  numbered := h.numbered
  heard := h.heard
  board := h.board.congr rfl hreaders hlength

theorem attended_step (h : a.station.Attended) (t : AudienceStep) :
    (a.step t).station.Attended := by
  cases t with
  | station t => exact h.step t
  | read i => exact attended_withNotices h rfl (a.station.board.board.length_take i)
  | close i => exact attended_withNotices h rfl (a.station.board.board.length_close i)

theorem told_read (a : Audience) (i box : Nat) : (a.step (.read i)).told box = a.told box := by
  unfold told
  show (if i = box then _ else _) ++ (a.station.board.board.take i).2.waiting box = _
  rw [NoticeBoard.waiting_take]
  by_cases hsame : i = box
  · subst hsame
    rw [if_pos rfl, if_pos rfl, List.append_nil]
    rfl
  · rw [if_neg hsame, if_neg hsame]

theorem stands_step (h : a.station.Attended)
    (hstands : a.station.board.Stands id box start (a.heard box) gone) {t : AudienceStep}
    (ht : t ≠ .close box) :
    (a.step t).station.board.Stands id box start ((a.step t).heard box)
      (gone ∨ t = .station (.unregister id)) := by
  cases t with
  | station t =>
      exact (h.stands hstands t).mono (Or.imp_right fun hsame => by rw [hsame])
  | read i =>
      refine (hstands.congr (a.told_read i box) ?_ ?_ fun _ => rfl).mono Or.inl
      · exact fun hserves =>
          ⟨hserves.reader, (NoticeBoard.isOpen_take _ _ _).trans hserves.isOpen⟩
      · intro hretired
        refine ⟨?_, hretired.unserved⟩
        show box < (a.station.board.board.take i).2.boxes.length
        rw [NoticeBoard.length_take]
        exact hretired.made
  | close i =>
      have hne : i ≠ box := fun hsame => ht (by rw [hsame])
      have hspares := NoticeBoard.close_spares hne a.station.board.board
      have hkept : (a.step (.close i)).station.board.Stands id box start _ gone :=
        hstands.spare hspares fun _ => rfl
      exact hkept.mono Or.inl

theorem prefix_step (h : a.station.Attended) {t : AudienceStep} (ht : t ≠ .close box) :
    a.told box <+: (a.step t).told box := by
  cases t with
  | station t => exact (List.prefix_append_right_inj _).mpr (h.prefix_step t box)
  | read i =>
      rw [told_read]
  | close i =>
      have hne : i ≠ box := fun hsame => ht (by rw [hsame])
      unfold told
      show _ <+: _ ++ (a.station.board.board.close i).waiting box
      rw [(NoticeBoard.close_spares hne _).waiting]
      exact List.prefix_refl _

theorem retired_step (h : a.station.Attended) (hretired : a.station.board.board.Retired box)
    {t : AudienceStep} (ht : t ≠ .close box) :
    (a.step t).station.board.board.Retired box ∧ (a.step t).told box = a.told box := by
  cases t with
  | station t =>
      have hspares := h.spares hretired t
      refine ⟨hspares.retired hretired, ?_⟩
      unfold told
      rw [Audience.step, hspares.waiting]
  | read i =>
      refine ⟨⟨?_, hretired.unserved⟩, a.told_read i box⟩
      show box < (a.station.board.board.take i).2.boxes.length
      rw [NoticeBoard.length_take]
      exact hretired.made
  | close i =>
      have hne : i ≠ box := fun hsame => ht (by rw [hsame])
      have hspares := NoticeBoard.close_spares hne a.station.board.board
      refine ⟨hspares.retired hretired, ?_⟩
      unfold told
      show a.heard box ++ (a.station.board.board.close i).waiting box = _
      rw [hspares.waiting]

theorem attended_run (h : a.station.Attended) (steps : List AudienceStep) :
    (a.run steps).station.Attended := by
  induction steps generalizing a with
  | nil => exact h
  | cons t rest ih => exact ih (attended_step h t)

theorem stands_run (h : a.station.Attended)
    (hstands : a.station.board.Stands id box start (a.heard box) gone)
    (hsteps : .close box ∉ steps) :
    (a.run steps).station.board.Stands id box start ((a.run steps).heard box)
      (gone ∨ .station (.unregister id) ∈ steps) := by
  induction steps generalizing a gone with
  | nil => exact hstands.mono Or.inl
  | cons t rest ih =>
      rw [List.mem_cons, not_or] at hsteps
      have hstep := stands_step h hstands (Ne.symm hsteps.1)
      refine (ih (attended_step h t) hstep hsteps.2).mono ?_
      rintro ((hgone | hsame) | hmem)
      · exact Or.inl hgone
      · exact Or.inr (hsame ▸ List.mem_cons_self)
      · exact Or.inr (List.mem_cons_of_mem _ hmem)

theorem prefix_run (h : a.station.Attended) (hsteps : .close box ∉ steps) :
    a.told box <+: (a.run steps).told box := by
  induction steps generalizing a with
  | nil => exact List.prefix_refl _
  | cons t rest ih =>
      rw [List.mem_cons, not_or] at hsteps
      exact (prefix_step h (Ne.symm hsteps.1)).trans (ih (attended_step h t) hsteps.2)

theorem retired_run (h : a.station.Attended) (hretired : a.station.board.board.Retired box)
    (hsteps : .close box ∉ steps) : (a.run steps).told box = a.told box := by
  induction steps generalizing a with
  | nil => rfl
  | cons t rest ih =>
      rw [List.mem_cons, not_or] at hsteps
      obtain ⟨hretired', hsame⟩ := retired_step h hretired (Ne.symm hsteps.1)
      exact (ih (attended_step h t) hretired' hsteps.2).trans hsame

end Audience

/-- Whatever devices and sessions do, and however late and in whichever order of their queues
changes and ends are handled, the owner of a registered session is told of a journey that starts
at the device of the registration and has come to where the session is, or of its end after that,
and then of nothing more. An owner who did not have the session forgotten has been told of its
end once that was handled, and one who did is told nothing from then on. -/
theorem owner_told_of_journey {s t : Station} (hs : s.Unused) {before after : List AudienceStep}
    (ht : t = (Audience.run { station := s } before).station) {id box : Nat} {session : Session}
    (hsession : t.registry.any? id = some session) {decision : RouteDecision}
    (hregister : (t.register session).1 = .ok (decision, box)) (hopen : .close box ∉ after) :
    let a : Audience := { station := t.step (.register id) }
    let told := (a.run after).told box
    ((∃ d, Journey id decision.device told d ∧ (.station (.unregister id) ∈ after ∨
        ((a.run after).station.board.decision? id).map (·.device) = some d)) ∨
      Journey.Ended id decision.device told) ∧
    (∀ more, .close box ∉ more →
      told <+: (a.run (after ++ more)).told box ∧
        (Journey.Ended id decision.device told → (a.run (after ++ more)).told box = told)) ∧
    (.station (.unregister id) ∉ after →
      ((∃ session', (a.run after).station.registry.any? id = some session' ∧
          session'.isTerminal) → ¬ (a.run after).station.registry.Owes id →
        Journey.Ended id decision.device told) ∧
      ∀ early late event events, after = early ++ .station .event :: late →
        (a.run early).station.registry.events = event :: events → event.sessionId = id →
        Journey.Ended id decision.device told) ∧
    ∀ early late, after = early ++ .station (.unregister id) :: late →
      told = (a.run early).told box := by
  intro a told
  have hattended : t.Attended := by
    rw [ht]
    exact Audience.attended_run hs.attended before
  obtain ⟨rfl, -⟩ := hattended.numbered id session hsession
  have hstep : t.step (.register session.id) = (t.register session).2 := by
    unfold Station.step
    dsimp only
    rw [hsession]
  have hrun : ∀ steps, (a.run steps).station.Attended :=
    fun steps => Audience.attended_run (hattended.step (.register session.id)) steps
  have hstands : ∀ steps, .close box ∉ steps → (a.run steps).station.board.Stands session.id box
      decision.device ((a.run steps).heard box) (.station (.unregister session.id) ∈ steps) := by
    intro steps hsteps
    have hstart : (t.step (.register session.id)).board.Stands session.id box decision.device []
        False := by
      rw [hstep]
      exact t.board.stands_register hregister
    exact (Audience.stands_run (hattended.step (.register session.id)) hstart hsteps).mono
      (Or.resolve_left · id)
  have hfinal : ∀ steps more, .close box ∉ steps → .close box ∉ more →
      Journey.Ended session.id decision.device ((a.run steps).told box) →
      (a.run (steps ++ more)).told box = (a.run steps).told box := by
    intro steps more hsteps hmore hended
    rw [Audience.run_append]
    exact Audience.retired_run (hrun steps) ((hstands steps hsteps).retired hended) hmore
  refine ⟨(hstands after hopen).wellFormed, fun more hmore => ⟨?_, hfinal after more hopen hmore⟩,
    fun hstays => ⟨fun hend hhandled => ?_, ?_⟩, ?_⟩
  · rw [Audience.run_append]
    exact Audience.prefix_run (hrun after) hmore
  · refine (hstands after hopen).ended hstays ?_
    refine Option.eq_none_iff_forall_ne_some.mpr fun e hentry => hhandled ?_
    obtain ⟨session', hsession', hterminal⟩ := hend
    obtain ⟨s', hs', howes⟩ := (hrun after).board.sessions session.id e hentry
    rw [hsession'] at hs'
    cases hs'
    exact howes hterminal
  · intro early late event events hafter hevents hid
    have hsplit : after = (early ++ [.station .event]) ++ late := by
      rw [hafter, List.append_assoc, List.singleton_append]
    rw [hsplit, List.mem_append, not_or] at hopen hstays
    have hended : Journey.Ended session.id decision.device
        ((a.run (early ++ [.station .event])).told box) := by
      refine (hstands _ hopen.1).ended hstays.1 ?_
      rw [Audience.run_append]
      show (a.run early).station.nextEvent.2.board.entries.get? _ = none
      rw [← hid]
      unfold Station.nextEvent
      rw [hevents]
      exact (a.run early).station.board.get?_handleEvent event
    show Journey.Ended _ _ ((a.run after).told box)
    rw [hsplit, hfinal _ late hopen.1 hopen.2 hended]
    exact hended
  · intro early late hafter
    have hsplit : after = (early ++ [.station (.unregister session.id)]) ++ late := by
      rw [hafter, List.append_assoc, List.singleton_append]
    rw [hsplit, List.mem_append, not_or, List.mem_append, not_or] at hopen
    obtain ⟨⟨hearly, -⟩, hlate⟩ := hopen
    have hleft : a.run (early ++ [.station (.unregister session.id)]) =
        (a.run early).step (.station (.unregister session.id)) :=
      Audience.run_append _ _ _
    have hretired := (hstands early hearly).retired_unregister (hrun early).board.board
    show (a.run after).told box = _
    rw [hsplit, Audience.run_append]
    refine (Audience.retired_run (hrun _) ?_ hlate).trans ?_
    · rw [hleft]
      exact hretired
    · rw [hleft]
      show _ ++ ((a.run early).station.board.unregister session.id).2.board.waiting box = _
      rw [Switchboard.waiting_unregister]
      rfl

theorem release_told_of_by_headset :
    ∃ cs, RouteChains.ofNames RouteRule.builtIn {} = .ok cs ∧
      let speaker : Device := { type := .speaker, role := .output, connectedAt := 1 }
      let headset : Device := { type := .wiredHeadset, role := .output, connectedAt := 2 }
      let s := Station.vacant cs {} none
      let t := (Audience.run { station := s }
        [.station (.sessions (.create ⟨.render .music, {}, 1000, 16, 4⟩))]).station
      let after : List AudienceStep :=
        [.station (.devices (.connect 1 speaker)), .station .change, .read 0,
          .station (.sessions (.call 1 .release)), .station (.devices (.connect 2 headset)),
          .station .change, .station .event]
      let told := (Audience.run { station := t.step (.register 1) } after).told 0
      s.Unused ∧ (∃ session, t.registry.any? 1 = some session ∧
        (t.register session).1 = .ok (⟨Device.none, 0⟩, 0)) ∧ .close 0 ∉ after ∧
        told = [.deviceChanged 1 Device.none speaker, .teardown 1 "released"] ∧
        Journey.Ended 1 Device.none told := by
  have hnames : RouteChains.ofNames RouteRule.builtIn {} = .ok _ := rfl
  refine ⟨_, hnames, ?_⟩
  intro speaker headset s t after told
  have hs : s.Unused := ⟨rfl, rfl⟩
  obtain ⟨session, hsession⟩ : ∃ session, t.registry.any? 1 = some session := ⟨_, rfl⟩
  have hregister : (t.register session).1 = .ok (⟨Device.none, 0⟩, 0) := by
    cases hsession
    rfl
  have hopen : .close 0 ∉ after := by simp [after]
  have hstays : .station (.unregister 1) ∉ after := by simp [after]
  have htold : told = [.deviceChanged 1 Device.none speaker, .teardown 1 "released"] := by
    decide +kernel
  have hevents : (Audience.run { station := t.step (.register 1) }
      (after.take 6)).station.registry.events = [.released 1] := by decide +kernel
  obtain ⟨-, -, hended, -⟩ := owner_told_of_journey hs (t := t) rfl hsession hregister hopen
  have hevent := (hended hstays).2 (after.take 6) [] (.released 1) [] rfl hevents rfl
  exact ⟨hs, ⟨session, hsession, hregister⟩, hopen, htold, hevent⟩

end Patchbay
