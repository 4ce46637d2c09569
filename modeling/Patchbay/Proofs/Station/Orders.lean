import Patchbay.Proofs.Route.Orders
import Patchbay.Proofs.Station.Notices

/-!
# Sessions without an order

The registered sessions of a station are kept in no order at all, so that whenever a change is
handled they may be visited in any. Over whole runs of this kind the handling of a change comes
to the same in every order, but for the active output.
-/
namespace Patchbay

/-- The entries are listed in this order from now on. -/
def Audience.reorder (a : Audience) (order : Table Nat RouteEntry) : Audience :=
  { a with station := { a.station with
      board := { a.station.board with entries := order } } }

/-- What can come to pass when the entries of the switchboard change their order at any time. -/
inductive Audience.Reaches (a : Audience) : Audience → Prop where
  | refl : Reaches a a
  | step {a' : Audience} (h : Reaches a a') (t : AudienceStep) : Reaches a (a'.step t)
  | reorder {a' : Audience} (h : Reaches a a') (order : Table Nat RouteEntry)
      (perm : order.Perm a'.station.board.entries) : Reaches a (a'.reorder order)

variable {a a' : Audience} {s : Station} {b : Switchboard} {reg : Registry}
variable {order : Table Nat RouteEntry}

theorem Switchboard.Orderly.reorder (h : b.Orderly reg) (horder : order.Perm b.entries) :
    { b with entries := order }.Orderly reg where
  board := h.board
  readers := by
    intro id box hreader
    obtain ⟨e, he⟩ := h.readers id box hreader
    exact ⟨e, (Table.get?_perm horder.symm id).symm.trans he⟩
  sessions := fun id e he =>
    h.sessions id e ((Table.get?_perm horder.symm id).trans he)

theorem Audience.Reaches.attended (h : a.Reaches a') (ha : a.station.Attended) :
    a'.station.Attended := by
  induction h with
  | refl => exact ha
  | step _ t ih => exact attended_step ih t
  | reorder _ order perm ih => exact { ih with board := ih.board.reorder perm }

theorem Audience.Reaches.run (h : a.Reaches a') (steps : List AudienceStep) :
    a.Reaches (a'.run steps) := by
  induction steps generalizing a' with
  | nil => exact h
  | cons t rest ih => exact ih (h.step t)

/-- The orders in which a change can visit the sessions part in the active output only: it is
the output handed out last, unless that went away. -/
theorem orders_part_in_active_output_only (hs : s.Unused)
    (h : Audience.Reaches { station := s } a) (change : DeviceChange) :
    let t := a.station
    let handled := fun order => t.board.handleInOrder order t.roster t.registry change
    let active := fun order => (handled order).2.1.activeOutput
    (∀ order order' : Table Nat RouteEntry,
      order.Perm t.board.entries → order'.Perm t.board.entries →
      (handled order).1 = (handled order').1 ∧
        (∀ id, (handled order).2.1.decision? id = (handled order').2.1.decision? id) ∧
        (handled order).2.2 = (handled order').2.2 ∧
        (handled order).2.1.board = (handled order').2.1.board ∧
        (handled order).2.1.entries.Perm (handled order').2.1.entries) ∧
    (∀ order : Table Nat RouteEntry, order.Perm t.board.entries →
      active order = t.board.settledOutput t.roster change
        ((order.toList.filterMap (t.board.handsOut? t.roster t.registry change)).getLastD
          t.board.activeOutput)) ∧
    ((∀ order order' : Table Nat RouteEntry,
      order.Perm t.board.entries → order'.Perm t.board.entries →
      active order = active order') ↔ t.board.OneOutput t.roster t.registry change) := by
  intro t handled active
  obtain ⟨hnumbered, -, hboard⟩ := h.attended hs.attended
  refine ⟨?_, ?_, ?_⟩
  · intro order order' horder horder'
    obtain ⟨hmoved, halike, hregistry⟩ := Switchboard.handleInOrder_alike hnumbered hboard.board
      horder horder' t.roster change
    refine ⟨hmoved, fun id => ?_, hregistry, halike.board, halike.entries⟩
    unfold Switchboard.decision?
    rw [Table.get?_perm halike.entries]
  · exact fun order _ =>
      Switchboard.activeOutput_handleInOrder hnumbered hboard.board order t.roster change
  · exact Switchboard.oneOutput_iff hnumbered hboard.board t.roster change

theorem speaker_active_in_every_order :
    ∃ cs, RouteChains.ofNames RouteRule.builtIn {} = .ok cs ∧
      let speaker : Device := { type := .speaker, role := .output, connectedAt := 1 }
      let s := Station.vacant cs {} none
      let a := Audience.run { station := s } [
        .station (.sessions (.create ⟨.render .music, {}, 1000, 16, 4⟩)), .station (.register 1),
        .station (.sessions (.create ⟨.render .ringtone, {}, 1000, 16, 4⟩)),
        .station (.register 2), .station (.devices (.connect 1 speaker))]
      let t := a.station
      let change := (s.connect 1 speaker).1
      s.Unused ∧ Audience.Reaches { station := s } a ∧ t.changes.head? = some change ∧
        t.board.entries.keys = [1, 2] ∧
          ∀ order : Table Nat RouteEntry, order.Perm t.board.entries →
            (t.board.handleInOrder order t.roster t.registry change).1 = 2 ∧
              (t.board.handleInOrder order t.roster t.registry change).2.1.activeOutput =
                speaker := by
  have hnames : RouteChains.ofNames RouteRule.builtIn {} = .ok _ := rfl
  refine ⟨_, hnames, ?_⟩
  intro speaker s a t change
  have hs : s.Unused := ⟨rfl, rfl⟩
  have hreaches : Audience.Reaches { station := s } a := Audience.Reaches.refl.run _
  have hgiven : ∀ p ∈ t.board.entries.toList,
      t.board.handsOut? t.roster t.registry change p = some speaker := by decide +kernel
  have hone : t.board.OneOutput t.roster t.registry change := by
    intro p hp q hq d d' hd hd'
    rw [hgiven p hp] at hd
    rw [hgiven q hq] at hd'
    rw [← Option.some.inj hd, ← Option.some.inj hd']
  obtain ⟨hkept, -, hsame⟩ := orders_part_in_active_output_only hs hreaches change
  refine ⟨hs, hreaches, by decide +kernel, by decide +kernel, fun order horder => ⟨?_, ?_⟩⟩
  · exact (hkept order t.board.entries horder (.refl _)).1.trans (by decide +kernel)
  · exact (hsame.mpr hone order t.board.entries horder (.refl _)).trans (by decide +kernel)

theorem last_visited_sets_active_output :
    ∃ cs, RouteChains.ofNames RouteRule.builtIn {} = .ok cs ∧
      let speaker : Device := { type := .speaker, role := .output, connectedAt := 1 }
      let headset : Device :=
        { type := .bluetoothA2dp, role := .output, connectedAt := 2, privacy := .isPrivate }
      let s := Station.vacant cs {} none
      let a := Audience.run { station := s } [
        .station (.sessions (.create ⟨.render .music, {}, 1000, 16, 4⟩)), .station (.register 1),
        .station (.sessions (.create ⟨.render .ringtone, {}, 1000, 16, 4⟩)),
        .station (.register 2), .station (.devices (.connect 1 speaker)),
        .station (.devices (.connect 2 headset))]
      let t := a.station
      let change := (s.connect 1 speaker).1
      let active := fun order =>
        (t.board.handleInOrder order t.roster t.registry change).2.1.activeOutput
      let reversed := t.board.entries.reorder _ (List.reverse_perm _)
      s.Unused ∧ Audience.Reaches { station := s } a ∧ t.changes.head? = some change ∧
        reversed.Perm t.board.entries ∧
        active t.board.entries = speaker ∧ active reversed = headset := by
  have hnames : RouteChains.ofNames RouteRule.builtIn {} = .ok _ := rfl
  refine ⟨_, hnames, ?_⟩
  intro speaker headset s a t change active reversed
  refine ⟨⟨rfl, rfl⟩, Audience.Reaches.refl.run _, ?_, List.reverse_perm _, ?_, ?_⟩ <;>
    decide +kernel

end Patchbay
