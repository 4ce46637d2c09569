import Patchbay.Proofs.Session.Endings
import Patchbay.Server.Requests

/-!
# When no session begins or ends

Most of what a server does leaves all sessions in being and registered as they were, with the
owners that they had: what concerns the desk or one session, and the forwarding of notices. Only
to make a session and to release one are different.
-/
namespace Patchbay

namespace VolumeDesk

theorem adjust_goesOn (d : VolumeDesk) (s : Session) : s.GoesOn (d.adjust s) := by
  unfold adjust
  split
  · exact .refl s
  · exact ⟨rfl, rfl, rfl, rfl, rfl⟩

theorem attach_goesOn (d : VolumeDesk) (reg : Registry) (id : Nat) :
    reg.GoesOn (d.attach reg id) :=
  reg.modify_goesOn id d.adjust_goesOn

theorem push_goesOn (d : VolumeDesk) (only : Option VolumeClass) (reg : Registry) :
    reg.GoesOn (d.push only reg) := by
  unfold push
  dsimp only
  have hfold : ∀ (wanted : Session → Bool) (ids : List Nat) (reg' : Registry), reg.GoesOn reg' →
      reg.GoesOn (ids.foldl (fun reg id =>
        reg.modify id fun s => if wanted s then d.adjust s else s) reg') := by
    intro wanted ids
    induction ids with
    | nil => exact fun _ h => h
    | cons id ids ih =>
        intro reg' h
        refine ih _ (h.trans (reg'.modify_goesOn id fun s => ?_))
        split
        · exact d.adjust_goesOn s
        · exact .refl s
  exact hfold _ reg.listed reg (.refl reg)

theorem setVolume_goesOn (d : VolumeDesk) (reg : Registry) (c : VolumeClass) (v : Single) :
    reg.GoesOn (d.setVolume reg c v).2.2 := by
  unfold setVolume
  split
  · exact push_goesOn _ _ reg
  · exact .refl reg

end VolumeDesk

namespace Server

/-- From `s` to `s'` no session was made and none has ended. -/
structure Steady (s s' : Server) : Prop where
  registry : s.station.registry.GoesOn s'.station.registry
  entries : s'.station.board.entries = s.station.board.entries
  readers : s'.station.board.board.readers = s.station.board.board.readers
  boxes : s'.station.board.board.boxes.length = s.station.board.board.boxes.length
  owners : s'.owners = s.owners
  links : ∀ conn, s'.links.has conn = s.links.has conn

variable {s s' s'' : Server}

theorem Steady.refl (s : Server) : s.Steady s :=
  ⟨.refl _, rfl, rfl, rfl, rfl, fun _ => rfl⟩

theorem Steady.trans (h : s.Steady s') (h' : s'.Steady s'') : s.Steady s'' where
  registry := h.registry.trans h'.registry
  entries := h'.entries.trans h.entries
  readers := h'.readers.trans h.readers
  boxes := h'.boxes.trans h.boxes
  owners := h'.owners.trans h.owners
  links := fun conn => (h'.links conn).trans (h.links conn)

theorem Steady.foldl {α : Type} {f : Server → α → Server} (hf : ∀ s a, Steady s (f s a))
    (l : List α) (s : Server) : s.Steady (l.foldl f s) := by
  induction l generalizing s with
  | nil => exact .refl s
  | cons a l ih => exact (hf s a).trans (ih _)

theorem Steady.sessionsOf (h : s.Steady s') (conn : Nat) :
    s'.sessionsOf conn = s.sessionsOf conn := by
  rw [Server.sessionsOf, h.owners]
  rfl

theorem steady_of_station {st : Station} (hreg : s.station.registry.GoesOn st.registry)
    (hboard : st.board = s.station.board) : s.Steady { s with station := st } :=
  ⟨hreg, by rw [hboard], by rw [hboard], by rw [hboard], rfl, fun _ => rfl⟩

theorem steady_withLines (s : Server) (lines : Inboxes Wire.Notification) :
    s.Steady { s with lines := lines } :=
  ⟨.refl _, rfl, rfl, rfl, rfl, fun _ => rfl⟩

theorem steady_closeFeed (s : Server) (feed : Feed) : s.Steady (s.closeFeed feed) := by
  cases feed with
  | session box => exact ⟨.refl _, rfl, rfl, List.length_modify _ _ _, rfl, fun _ => rfl⟩
  | parameters box => exact ⟨.refl _, rfl, rfl, rfl, rfl, fun _ => rfl⟩

theorem steady_takeFeed (s : Server) (feed : Feed) : s.Steady (s.takeFeed feed).2 := by
  cases feed with
  | session box => exact ⟨.refl _, rfl, rfl, List.length_modify _ _ _, rfl, fun _ => rfl⟩
  | parameters box => exact ⟨.refl _, rfl, rfl, rfl, rfl, fun _ => rfl⟩

theorem steady_forward (s : Server) (f : Forwarder) : s.Steady (s.forward f) := by
  have htake := s.steady_takeFeed f.feed
  unfold forward
  split
  · rename_i h
    rw [h] at htake
    exact htake
  · rename_i h
    rw [h] at htake
    split
    · exact htake.trans (steady_withLines _ _)
    · exact htake.trans (steady_closeFeed _ _)

theorem steady_onSession (hr : s.station.registry.Numbered) (conn id : Nat)
    {op : Session → Except StreamError Unit × Session}
    (hop : ∀ session : Session, session.GoesOn (op session).2) :
    s.Steady (s.onSession conn id op).2 := by
  unfold onSession
  split
  · exact .refl s
  · exact steady_of_station (s.station.registry.apply_goesOn hr id hop) rfl

theorem steady_resolve (hr : s.station.registry.Numbered) (conn id : Nat) :
    s.Steady (s.resolve conn id).2 := by
  have hresolve : s.station.registry.GoesOn (s.station.apply id (·.resolve)).2.registry :=
    s.station.registry.apply_goesOn hr id Session.goesOn_resolve
  unfold resolve
  split
  · exact .refl s
  · split
    · rename_i h
      rw [h] at hresolve
      exact steady_of_station hresolve (congrArg (fun p => p.2.board) h).symm
    · rename_i handle st h
      rw [h] at hresolve
      have hclaim := hresolve.trans (st.registry.claim_goesOn handle.id)
      have hboard := (congrArg (fun p => p.2.board) h).symm
      dsimp only
      split <;> exact steady_of_station hclaim hboard

/-- Requests other than to make a session or to release one leave all sessions in being. -/
theorem steady_handle (hr : s.station.registry.Numbered) (conn : Nat) {r : Wire.Request}
    (hcreate : ∀ config, r ≠ .createSession config) (hrelease : ∀ id, r ≠ .release id) :
    s.Steady (s.handle conn r).2 := by
  cases r with
  | createSession config => exact absurd rfl (hcreate config)
  | resolveBuffer id => exact steady_resolve hr conn _
  | start id => exact steady_onSession hr conn _ Session.goesOn_start
  | pause id discard => exact steady_onSession hr conn _ fun session => session.goesOn_pause discard
  | resume id => exact steady_onSession hr conn _ Session.goesOn_resume
  | stop id => exact steady_onSession hr conn _ Session.goesOn_stop
  | release id => exact absurd rfl (hrelease id)
  | handleInfo id => exact .refl s
  | devices role privacy => exact .refl s
  | setVolume c v => exact steady_of_station (s.station.desk.setVolume_goesOn _ c v) rfl
  | volume c => exact .refl s
  | setMuted c m => exact steady_of_station (VolumeDesk.push_goesOn _ _ _) rfl
  | isMuted c => exact .refl s
  | isActive c => exact .refl s
  | setDeviceActive t active => exact steady_of_station (.refl _) rfl
  | isDeviceActive t => exact .refl s
  | setRinger m => exact steady_of_station (VolumeDesk.push_goesOn _ _ _) rfl
  | ringer => exact .refl s
  | parameter key => exact .refl s
  | setParameter key value => exact steady_of_station (.refl _) rfl
  | remoteParameter network key condition => exact .refl s
  | setRemoteParameter network key condition value => exact steady_of_station (.refl _) rfl

theorem steady_adopt (s : Server) (conn id box : Nat) :
    Steady { s with owners := s.owners.put conn (s.sessionsOf conn ++ [id]) }
      (s.adopt conn id box) := by
  unfold adopt
  dsimp only
  split
  · exact steady_closeFeed _ _
  · rename_i link hlink
    refine ⟨.refl _, rfl, rfl, rfl, rfl, fun conn' => ?_⟩
    show (s.links.put conn _).has conn' = s.links.has conn'
    rw [Table.has_put]
    by_cases hsame : conn == conn'
    · rw [hsame, Bool.true_or, ← eq_of_beq hsame, Table.has_eq_isSome, hlink]
      rfl
    · rw [(Bool.not_eq_true _).mp hsame, Bool.false_or]

end Server
end Patchbay
