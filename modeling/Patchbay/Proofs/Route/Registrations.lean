import Patchbay.Proofs.Route.Notices
import Patchbay.Proofs.Route.Visits

/-!
# Who is registered

A switchboard is in order if each of its entries is for a session that exists, and for one that
has ended an event still waits, so the entry will go. Whatever the switchboard does keeps this
order, and so does whatever happens to the sessions.
-/
namespace Patchbay

/-- The tables of a switchboard agree with each other and with the sessions. -/
structure Switchboard.Orderly (b : Switchboard) (reg : Registry) : Prop where
  board : b.board.Sound
  /-- Notices are for registered sessions. -/
  readers : ∀ id box, b.board.readers.get? id = some box → ∃ e, b.entries.get? id = some e
  sessions : ∀ id e, b.entries.get? id = some e →
    ∃ s, reg.any? id = some s ∧ (s.isTerminal → reg.Owes id)

namespace Switchboard

variable {b : Switchboard} {r : Roster} {reg reg' : Registry} {w w' : Sweep} {id : Nat}
variable {e : RouteEntry} {s : Session} {change : DeviceChange}

theorem orderly_empty (cs : RouteChains) (reg : Registry) : Orderly { chains := cs } reg where
  board := NoticeBoard.sound_empty
  readers := fun id box h => by cases h
  sessions := fun id e h => by cases h

theorem Orderly.congr (h : b.Orderly reg) {b' : Switchboard} (hentries : b'.entries = b.entries)
    (hreaders : b'.board.readers = b.board.readers)
    (hlength : b'.board.boxes.length = b.board.boxes.length) : b'.Orderly reg where
  board :=
    { made := by
        rw [hreaders, hlength]
        exact h.board.made
      distinct := by
        rw [hreaders]
        exact h.board.distinct }
  readers := by
    rw [hreaders, hentries]
    exact h.readers
  sessions := by
    rw [hentries]
    exact h.sessions

theorem Orderly.announces (h : b.Orderly reg) (hreg : reg.Announces reg') : b.Orderly reg' :=
  { h with
    sessions := by
      intro id e hget
      obtain ⟨s, hs, howes⟩ := h.sessions id e hget
      obtain ⟨s', hs', -, hends⟩ := hreg.sessions id s hs
      refine ⟨s', hs', fun hend => ?_⟩
      rcases hends hend with hend | howes'
      · exact (howes hend).mono hreg.events
      · exact howes' }

theorem Orderly.goesOn (h : b.Orderly reg) (hreg : reg.GoesOn reg') : b.Orderly reg' := by
  refine h.announces ⟨fun e he => by rw [hreg.events]; exact he, fun id s hs => ?_⟩
  obtain ⟨s', hs', hgoes⟩ := hreg.sessions id s hs
  exact ⟨s', hs', fun hend => hgoes.isTerminal.trans hend,
    fun hend => Or.inl (hgoes.isTerminal.symm.trans hend)⟩

theorem Orderly.put (h : b.Orderly reg) (hget : b.entries.get? id = some e) {e' : RouteEntry}
    {n : SessionNotice} {b' : Switchboard} (hentries : b'.entries = b.entries.put id e')
    (hboard : b'.board = (b.board.notify id n).2) : b'.Orderly reg where
  board := by
    rw [hboard]
    exact h.board.notify id n
  readers := by
    intro id' box hreader
    rw [hboard] at hreader
    rw [hentries, Table.get?_put]
    split
    · exact ⟨e', rfl⟩
    · exact h.readers id' box (NoticeBoard.reader_of_notify hreader)
  sessions := by
    intro id' t hentry
    rw [hentries] at hentry
    rcases Table.get?_put_cases hentry with ⟨rfl, -⟩ | ⟨-, hentry⟩
    · exact h.sessions id' e hget
    · exact h.sessions id' t hentry

theorem Orderly.visit (h : w.board.Orderly w.registry) (hr : w.registry.Numbered)
    (hget : w.board.entries.get? id = some e) (hvisit : w.Visits id e w') :
    w'.board.Orderly w'.registry := by
  have hreg := hvisit.goesOn hr
  cases hvisit with
  | skip => exact h
  | give => exact h.goesOn hreg
  | move d =>
      refine Orderly.goesOn ?_ hreg
      exact h.put hget rfl rfl

theorem Orderly.forget (h : b.Orderly reg) (id : Nat) {board : NoticeBoard} (hboard : board.Sound)
    (hreaders : ∀ id' box, board.readers.get? id' = some box →
      b.board.readers.get? id' = some box) :
    Orderly { b with entries := b.entries.erase id, board := (board.remove id).2 } reg where
  board := hboard.remove id
  readers := by
    intro id' box hreader
    obtain ⟨hne, hreader⟩ := Table.get?_of_get?_erase hreader
    obtain ⟨e, hentry⟩ := h.readers id' box (hreaders id' box hreader)
    refine ⟨e, ?_⟩
    show Table.get? (b.entries.erase id) id' = some e
    rw [Table.get?_erase, if_neg (by simpa using hne.symm)]
    exact hentry
  sessions := fun id' e hget => h.sessions id' e (Table.get?_of_get?_erase hget).2

theorem Orderly.tearDown (h : b.Orderly reg) (id : Nat) (reason : String) :
    (b.tearDown id reason).Orderly reg :=
  h.forget id (h.board.notify id _) fun _ _ hreader => NoticeBoard.reader_of_notify hreader

theorem Orderly.handleChange (h : b.Orderly reg) (hr : reg.Numbered) (r : Roster)
    (change : DeviceChange) :
    (b.handleChange r reg change).2.1.Orderly (b.handleChange r reg change).2.2 :=
  handleChange_induction (P := Orderly) r change hr h
    (fun _ _ _ _ hr h hget hvisit => h.visit hr hget hvisit)
    (fun _ _ id reason h _ => h.tearDown id reason)
    (fun _ _ _ h => { h with })

theorem handleChange_keeps (hr : reg.Numbered) (r : Roster) (change : DeviceChange)
    (hget : b.entries.get? id = some e)
    (hs : (b.handleChange r reg change).2.2.any? id = some s) (hlive : ¬ s.isTerminal) :
    ∃ e', (b.handleChange r reg change).2.1.entries.get? id = some e' := by
  refine handleChange_induction
    (P := fun b' reg' => ∀ s, reg'.any? id = some s → ¬ s.isTerminal →
      ∃ e', b'.entries.get? id = some e') r change hr (fun _ _ _ => ⟨e, hget⟩)
    ?_ ?_ (fun _ _ _ hkeeps => hkeeps) s hs hlive
  · intro w w' id' e' hr hkeeps hget' hvisit s hs hlive
    obtain ⟨t, ht, hgoes⟩ := (hvisit.goesOn hr).only id s hs
    rw [hgoes.isTerminal] at hlive
    obtain ⟨e, hget⟩ := hkeeps t ht hlive
    cases hvisit with
    | skip => exact ⟨e, hget⟩
    | give => exact ⟨e, hget⟩
    | move =>
        dsimp only
        rw [Table.get?_put]
        split
        · exact ⟨_, rfl⟩
        · exact ⟨e, hget⟩
  · intro b reg id' reason hkeeps hended s hs hlive
    obtain ⟨e, hget⟩ := hkeeps s hs hlive
    have hne : ¬ id' == id := by
      intro hsame
      rw [eq_of_beq hsame] at hended
      exact hlive (hended s hs)
    refine ⟨e, ?_⟩
    rw [entries_tearDown, Table.get?_erase, if_neg hne]
    exact hget

theorem Orderly.unregister (h : b.Orderly reg) (id : Nat) : (b.unregister id).2.Orderly reg := by
  unfold Switchboard.unregister
  split
  · exact h.forget id h.board fun _ _ hreader => hreader
  · exact h

/-- The event that is handled was the reason for one entry at most, which goes with it. -/
theorem Orderly.handleEvent (h : b.Orderly reg) {event : SessionEvent} {later : List SessionEvent}
    (hevents : reg.events = event :: later) :
    (b.handleEvent event).Orderly { reg with events := later } := by
  have howes : ∀ id, id ≠ event.sessionId → reg.Owes id →
      Registry.Owes { reg with events := later } id := by
    rintro id hne ⟨e, he, hid⟩
    rw [hevents] at he
    rcases List.mem_cons.mp he with rfl | he
    · exact absurd hid.symm hne
    · exact ⟨e, he, hid⟩
  unfold Switchboard.handleEvent
  split
  · have htorn := h.tearDown event.sessionId event.reason
    refine { htorn with sessions := fun id e hget => ?_ }
    obtain ⟨hne, -⟩ := Table.get?_of_get?_erase hget
    obtain ⟨s, hs, hend⟩ := htorn.sessions id e hget
    exact ⟨s, hs, fun hterminal => howes id hne (hend hterminal)⟩
  · rename_i hhas
    refine { h with sessions := fun id e hget => ?_ }
    have hne : id ≠ event.sessionId := by
      rintro rfl
      rw [Table.has_eq_isSome, hget] at hhas
      exact hhas rfl
    obtain ⟨s, hs, hend⟩ := h.sessions id e hget
    exact ⟨s, hs, fun hterminal => howes id hne (hend hterminal)⟩

/-- What a registration may come to: it is refused and no entry is made, or the session is bound
and its notices go to a new inbox. -/
theorem register_cases (b : Switchboard) (r : Roster) (reg : Registry) (s : Session) :
    (∃ error registry, b.register r reg s = (.error error, b, registry) ∧
        (b.entries.has s.id ∧ registry = reg ∨
          ∃ d, registry = (reg.apply s.id (·.bind d)).2)) ∨
    ∃ d previous, b.entries.has s.id = false ∧
      (reg.apply s.id (·.bind d)).1 = .ok previous ∧
      b.register r reg s = (.ok (⟨d, r.generation⟩, (b.board.subscribe s.id).1),
        { b.noteOutput s.intent d with
          board := (b.board.subscribe s.id).2
          entries := b.entries.put s.id ⟨s.intent, s.config.uid, ⟨d, r.generation⟩⟩ },
        (reg.apply s.id (·.bind d)).2) := by
  unfold Switchboard.register
  by_cases hhas : b.entries.has s.id
  · rw [if_pos hhas]
    exact Or.inl ⟨_, _, rfl, Or.inl ⟨hhas, rfl⟩⟩
  · rw [if_neg hhas]
    dsimp only
    generalize b.chains.route r s.intent s.config.uid = d
    cases hbind : reg.apply s.id (·.bind d) with
    | mk answer registry =>
        cases answer with
        | error error => exact Or.inl ⟨_, _, rfl, Or.inr ⟨d, by rw [hbind]⟩⟩
        | ok previous =>
            refine Or.inr ⟨d, previous, by simpa using hhas, by rw [hbind], ?_⟩
            simp only [board_noteOutput, entries_noteOutput, hbind]

theorem entries_register (b : Switchboard) (r : Roster) (reg : Registry) (s : Session) :
    match (b.register r reg s).1 with
    | .error _ => (b.register r reg s).2.1 = b
    | .ok (decision, _) => (b.register r reg s).2.1.entries =
        b.entries.put s.id ⟨s.intent, s.config.uid, decision⟩ := by
  rcases b.register_cases r reg s with ⟨error, registry, hrefused, -⟩ | ⟨d, previous, -, -, hok⟩
  · rw [hrefused]
  · rw [hok]

theorem Orderly.register (h : b.Orderly reg) (hr : reg.Numbered) {t : Session}
    (ht : reg.any? s.id = some t) (r : Roster) :
    (b.register r reg s).2.1.Orderly (b.register r reg s).2.2 ∧
      reg.GoesOn (b.register r reg s).2.2 := by
  have hbind : ∀ d, reg.GoesOn (reg.apply s.id (·.bind d)).2 :=
    fun d => reg.apply_goesOn hr s.id fun s => s.goesOn_bind d
  rcases b.register_cases r reg s with
    ⟨error, registry, hrefused, ⟨-, rfl⟩ | ⟨d, rfl⟩⟩ | ⟨d, previous, hhas, hok, hregister⟩
  · rw [hrefused]
    exact ⟨h, .refl _⟩
  · rw [hrefused]
    exact ⟨h.goesOn (hbind d), hbind d⟩
  · rw [hregister]
    refine ⟨?_, hbind d⟩
    refine Orderly.goesOn ?_ (hbind d)
    exact {
      board := h.board.subscribe s.id
      readers := by
        intro id box hreader
        dsimp only
        rw [Table.get?_put]
        by_cases hsame : s.id == id
        · rw [if_pos hsame]
          exact ⟨_, rfl⟩
        · rw [if_neg hsame]
          rcases Table.get?_put_cases hreader with ⟨rfl, -⟩ | ⟨-, hreader⟩
          · exact absurd (beq_self_eq_true _) hsame
          · exact h.readers id box hreader
      sessions := by
        intro id e hget
        rcases Table.get?_put_cases hget with ⟨rfl, -⟩ | ⟨-, hget⟩
        · exact ⟨t, ht, fun hend => absurd hend (reg.not_isTerminal_of_apply_bind ht hok)⟩
        · exact h.sessions id e hget }

theorem handleChange_of_no_entries (hnone : b.entries = ∅) (r : Roster) (reg : Registry)
    (c : DeviceChange) :
    ∃ d, (b.handleChange r reg c).2 = ({ b with activeOutput := d }, reg) := by
  have hsweep : b.entries.toList.foldl (Sweep.visit r c) { board := b, registry := reg } =
      { board := b, registry := reg } := by rw [hnone]; rfl
  have hchange : (b.handleChange r reg c).2 =
      (if c.kind = .disconnected && b.activeOutput.sameEndpoint c.device then
        { b with activeOutput := b.chains.route r (.render .music) 0 } else b, reg) := by
    unfold handleChange
    rw [hsweep]
    rfl
  rw [hchange]
  split
  · exact ⟨_, rfl⟩
  · exact ⟨b.activeOutput, rfl⟩

theorem handleAll_of_no_entries (hnone : b.entries = ∅) (r : Roster) (reg : Registry)
    (changes : List DeviceChange) :
    ∃ d, b.handleAll r reg changes [] = ({ b with activeOutput := d }, reg) := by
  induction changes generalizing b with
  | nil => exact ⟨b.activeOutput, rfl⟩
  | cons c changes ih =>
      obtain ⟨d, hchange⟩ := handleChange_of_no_entries hnone r reg c
      obtain ⟨d', hrest⟩ := ih (b := { b with activeOutput := d }) hnone
      refine ⟨d', ?_⟩
      show (b.handleChange r reg c).2.1.handleAll r (b.handleChange r reg c).2.2 changes [] = _
      rw [hchange]
      exact hrest

end Switchboard
end Patchbay
