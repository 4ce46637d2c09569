import Mathlib.Data.List.Infix
import Patchbay.Proofs.Tables
import Patchbay.Route.Notice

/-!
# One reader of a notice board

What the operations of a notice board do to the queue of one reader. A notice to another session
spares it, a notice to its own session goes to its end, and once the session has no subscription
that leads to it, nothing is added any more.
-/
namespace Patchbay.NoticeBoard

/-- What waits in inbox `i`. -/
def waiting (b : NoticeBoard) (i : Nat) : List SessionNotice :=
  (b.take i).1

/-- Subscriptions lead to inboxes that were made, and no two of them to the same. -/
structure Sound (b : NoticeBoard) : Prop where
  made : ∀ id i, b.readers.get? id = some i → i < b.boxes.length
  distinct : ∀ id id' i, b.readers.get? id = some i → b.readers.get? id' = some i → id = id'

/-- The notices to session `id` go to inbox `i`. -/
structure Serves (b : NoticeBoard) (id i : Nat) : Prop where
  reader : b.readers.get? id = some i
  isOpen : b.boxes.isOpen i

/-- No notice goes to inbox `i`, which was made before, any more. -/
structure Retired (b : NoticeBoard) (i : Nat) : Prop where
  made : i < b.boxes.length
  unserved : ∀ id, b.readers.get? id ≠ some i

/-- From `b` to `b'` nothing happened that concerns inbox `i`. -/
structure Spares (b b' : NoticeBoard) (i : Nat) : Prop where
  waiting : b'.waiting i = b.waiting i
  isOpen : b'.boxes.isOpen i = b.boxes.isOpen i
  made : b.boxes.length ≤ b'.boxes.length
  readers : ∀ id, b'.readers.get? id = some i ↔ b.readers.get? id = some i

variable {b b' b'' : NoticeBoard} {id id' i j : Nat} {n : SessionNotice}

theorem waiting_eq (b : NoticeBoard) (i : Nat) :
    b.waiting i = ((b.boxes[i]?).map (·.queue)).getD [] := rfl

theorem Spares.refl (b : NoticeBoard) (i : Nat) : b.Spares b i :=
  ⟨rfl, rfl, Nat.le_refl _, fun _ => Iff.rfl⟩

theorem Spares.trans (h : b.Spares b' i) (h' : b'.Spares b'' i) : b.Spares b'' i :=
  ⟨h'.waiting.trans h.waiting, h'.isOpen.trans h.isOpen, Nat.le_trans h.made h'.made,
    fun id => (h'.readers id).trans (h.readers id)⟩

theorem Spares.serves (h : b.Spares b' i) (hserves : b.Serves id i) : b'.Serves id i :=
  ⟨(h.readers id).mpr hserves.reader, h.isOpen.trans hserves.isOpen⟩

theorem Spares.retired (h : b.Spares b' i) (hretired : b.Retired i) : b'.Retired i :=
  ⟨Nat.lt_of_lt_of_le hretired.made h.made,
    fun id hreader => hretired.unserved id ((h.readers id).mp hreader)⟩

theorem Sound.unserved (h : b.Sound) (hserves : b.Serves id i) (hne : id' ≠ id) :
    b.readers.get? id' ≠ some i :=
  fun hreader => hne (h.distinct id' id i hreader hserves.reader)

theorem sound_empty : Sound {} where
  made := fun id i h => by cases h
  distinct := fun id id' i h => by cases h

theorem get?_erase_eq_some (readers : Table Nat Nat) :
    (readers.erase id).get? id' = some i ↔ id' ≠ id ∧ readers.get? id' = some i := by
  constructor
  · exact Table.get?_of_get?_erase
  · rintro ⟨hne, hget⟩
    rw [Table.get?_erase, if_neg (by simpa using hne.symm)]
    exact hget

theorem Sound.forget (h : b.Sound) (id : Nat) : Sound { b with readers := b.readers.erase id } where
  made := fun id' i hreader => h.made id' i (Table.get?_of_get?_erase hreader).2
  distinct := fun id₁ id₂ i h₁ h₂ =>
    h.distinct id₁ id₂ i (Table.get?_of_get?_erase h₁).2 (Table.get?_of_get?_erase h₂).2

theorem forget_spares (h : b.readers.get? id ≠ some i) :
    b.Spares { b with readers := b.readers.erase id } i where
  waiting := rfl
  isOpen := rfl
  made := Nat.le_refl _
  readers := by
    intro id'
    refine (get?_erase_eq_some b.readers).trans ⟨And.right, fun hreader => ⟨?_, hreader⟩⟩
    rintro rfl
    exact h hreader

theorem Sound.remove (h : b.Sound) (id : Nat) : (b.remove id).2.Sound :=
  h.forget id

theorem remove_spares (h : b.readers.get? id ≠ some i) : b.Spares (b.remove id).2 i :=
  forget_spares h

theorem Sound.retired_remove (h : b.Sound) (hserves : b.Serves id i) :
    (b.remove id).2.Retired i where
  made := h.made id i hserves.reader
  unserved := by
    intro id' hreader
    obtain ⟨hne, hreader⟩ := Table.get?_of_get?_erase hreader
    exact h.unserved hserves hne hreader

theorem waiting_remove (b : NoticeBoard) (id i : Nat) : (b.remove id).2.waiting i = b.waiting i :=
  rfl

/-- A notice is queued for the reader of its session, and a reader that has gone is forgotten. -/
theorem notify_cases (b : NoticeBoard) (id : Nat) (n : SessionNotice) :
    b.readers.get? id = none ∧ (b.notify id n).2 = b ∨
    ∃ i, b.readers.get? id = some i ∧
      (b.boxes.isOpen i = false ∧ (b.notify id n).2 = { b with readers := b.readers.erase id } ∨
        b.boxes.isOpen i = true ∧ (b.notify id n).2 = { b with boxes := b.boxes.sendTo i n }) := by
  unfold notify
  cases hreader : b.readers.get? id with
  | none => exact Or.inl ⟨rfl, rfl⟩
  | some i =>
      refine Or.inr ⟨i, rfl, ?_⟩
      dsimp only
      cases hopen : b.boxes.isOpen i with
      | true => exact Or.inr ⟨rfl, by rw [if_pos rfl]⟩
      | false => exact Or.inl ⟨rfl, by rw [if_neg Bool.false_ne_true]⟩

theorem isOpen_sendTo (bs : Inboxes SessionNotice) (i j : Nat) (n : SessionNotice) :
    (bs.sendTo i n).isOpen j = bs.isOpen j := by
  have hsend : ∀ box : Inbox SessionNotice, (box.send n).isOpen = box.isOpen := by
    intro box
    unfold Inbox.send
    split <;> rfl
  unfold Inboxes.sendTo Inboxes.isOpen
  rw [List.getElem?_modify]
  cases bs[j]? with
  | none => rfl
  | some box =>
      show (if i = j then box.send n else box).isOpen = box.isOpen
      split
      · exact hsend box
      · rfl

theorem waiting_sendTo_of_ne (hne : j ≠ i) :
    waiting { b with boxes := b.boxes.sendTo j n } i = b.waiting i := by
  rw [waiting_eq, waiting_eq]
  show (((b.boxes.modify j _)[i]?).map _).getD [] = _
  rw [List.getElem?_modify]
  simp [hne]

theorem waiting_sendTo_self (hopen : b.boxes.isOpen i) :
    waiting { b with boxes := b.boxes.sendTo i n } i = b.waiting i ++ [n] := by
  rw [waiting_eq, waiting_eq]
  show (((b.boxes.modify i _)[i]?).map _).getD [] = _
  unfold Inboxes.isOpen at hopen
  rw [List.getElem?_modify]
  cases hbox : b.boxes[i]? with
  | none =>
      rw [hbox] at hopen
      cases hopen
  | some box =>
      rw [hbox] at hopen
      have hopen : box.isOpen = true := hopen
      simp [Inbox.send, hopen]

theorem length_sendTo (bs : Inboxes SessionNotice) (i : Nat) (n : SessionNotice) :
    (bs.sendTo i n).length = bs.length :=
  List.length_modify _ _ _

theorem reader_of_notify (h : (b.notify id n).2.readers.get? id' = some i) :
    b.readers.get? id' = some i := by
  rcases b.notify_cases id n with ⟨-, hsame⟩ | ⟨i, -, ⟨-, hforget⟩ | ⟨-, hsend⟩⟩
  · rw [hsame] at h
    exact h
  · rw [hforget] at h
    exact (Table.get?_of_get?_erase h).2
  · rw [hsend] at h
    exact h

theorem Sound.notify (h : b.Sound) (id : Nat) (n : SessionNotice) : (b.notify id n).2.Sound := by
  rcases b.notify_cases id n with ⟨-, hsame⟩ | ⟨i, -, ⟨-, hforget⟩ | ⟨-, hsend⟩⟩
  · rw [hsame]
    exact h
  · rw [hforget]
    exact h.forget id
  · rw [hsend]
    refine ⟨fun id' j hreader => ?_, h.distinct⟩
    rw [length_sendTo]
    exact h.made id' j hreader

theorem notify_spares (h : b.readers.get? id ≠ some i) (n : SessionNotice) :
    b.Spares (b.notify id n).2 i := by
  rcases b.notify_cases id n with ⟨-, hsame⟩ | ⟨j, hreader, ⟨-, hforget⟩ | ⟨-, hsend⟩⟩
  · rw [hsame]
    exact .refl b i
  · rw [hforget]
    exact forget_spares h
  · rw [hsend]
    have hne : j ≠ i := by
      rintro rfl
      exact h hreader
    exact ⟨waiting_sendTo_of_ne hne, isOpen_sendTo _ _ _ _, Nat.le_of_eq (length_sendTo _ _ _).symm,
      fun _ => Iff.rfl⟩

theorem Serves.notify (h : b.Serves id i) (n : SessionNotice) :
    (b.notify id n).2.Serves id i ∧ (b.notify id n).2.waiting i = b.waiting i ++ [n] := by
  rcases b.notify_cases id n with ⟨hnone, -⟩ | ⟨j, hreader, hcase⟩
  · rw [h.reader] at hnone
    cases hnone
  · rw [h.reader] at hreader
    cases hreader
    rcases hcase with ⟨hclosed, -⟩ | ⟨-, hsend⟩
    · rw [h.isOpen] at hclosed
      cases hclosed
    · rw [hsend]
      exact ⟨⟨h.reader, (isOpen_sendTo _ _ _ _).trans h.isOpen⟩, waiting_sendTo_self h.isOpen⟩

theorem waiting_prefix_notify (b : NoticeBoard) (id i : Nat) (n : SessionNotice) :
    b.waiting i <+: (b.notify id n).2.waiting i := by
  rcases b.notify_cases id n with ⟨-, hsame⟩ | ⟨j, -, ⟨-, hforget⟩ | ⟨hopen, hsend⟩⟩
  · rw [hsame]
  · rw [hforget]
    exact List.prefix_refl _
  · rw [hsend]
    by_cases hsame : j = i
    · subst hsame
      rw [waiting_sendTo_self hopen]
      exact List.prefix_append _ _
    · rw [waiting_sendTo_of_ne hsame]

theorem getElem?_join_of_lt {bs : Inboxes SessionNotice} (h : i < bs.length) :
    bs.join.2[i]? = bs[i]? :=
  List.getElem?_append_left h

theorem Sound.subscribe (h : b.Sound) (id : Nat) : (b.subscribe id).2.Sound := by
  have hlength : (b.subscribe id).2.boxes.length = b.boxes.length + 1 := by
    simp [NoticeBoard.subscribe, Inboxes.join]
  have hreader : ∀ id' i, (b.subscribe id).2.readers.get? id' = some i →
      id' = id ∧ i = b.boxes.length ∨ b.readers.get? id' = some i ∧ i < b.boxes.length := by
    intro id' i hget
    rcases Table.get?_put_cases hget with hnew | ⟨-, hold⟩
    · exact Or.inl hnew
    · exact Or.inr ⟨hold, h.made id' i hold⟩
  constructor
  · intro id' i hget
    rw [hlength]
    rcases hreader id' i hget with ⟨-, rfl⟩ | ⟨-, hlt⟩
    · exact Nat.lt_succ_self _
    · exact Nat.lt_succ_of_lt hlt
  · intro id₁ id₂ i h₁ h₂
    rcases hreader id₁ i h₁ with ⟨rfl, rfl⟩ | ⟨h₁, hlt⟩
    · rcases hreader id₂ _ h₂ with ⟨rfl, -⟩ | ⟨-, hlt⟩
      · rfl
      · exact absurd hlt (Nat.lt_irrefl _)
    · rcases hreader id₂ i h₂ with ⟨-, rfl⟩ | ⟨h₂, -⟩
      · exact absurd hlt (Nat.lt_irrefl _)
      · exact h.distinct id₁ id₂ i h₁ h₂

theorem serves_subscribe (b : NoticeBoard) (id : Nat) :
    (b.subscribe id).2.Serves id (b.subscribe id).1 ∧
      (b.subscribe id).2.waiting (b.subscribe id).1 = [] := by
  have hbox : (b.boxes ++ [({} : Inbox SessionNotice)])[b.boxes.length]? = some {} := by simp
  refine ⟨⟨?_, ?_⟩, ?_⟩
  · show Table.get? (b.readers.put id b.boxes.length) id = some b.boxes.length
    rw [Table.get?_put, if_pos (beq_self_eq_true id)]
  · show (((b.boxes ++ [({} : Inbox SessionNotice)])[b.boxes.length]?).any (·.isOpen)) = true
    rw [hbox]
    rfl
  · show (((b.boxes ++ [({} : Inbox SessionNotice)])[b.boxes.length]?).map (·.queue)).getD [] = []
    rw [hbox]
    rfl

theorem subscribe_spares (hmade : i < b.boxes.length) (h : b.readers.get? id ≠ some i) :
    b.Spares (b.subscribe id).2 i where
  waiting := by
    rw [waiting_eq, waiting_eq]
    show (((b.boxes.join.2)[i]?).map _).getD [] = _
    rw [getElem?_join_of_lt hmade]
  isOpen := by
    show ((b.boxes.join.2)[i]?).any _ = (b.boxes[i]?).any _
    rw [getElem?_join_of_lt hmade]
  made := by simp [subscribe, Inboxes.join]
  readers := by
    intro id'
    show Table.get? (b.readers.put id b.boxes.length) id' = some i ↔ _
    rw [Table.get?_put]
    by_cases hsame : id = id'
    · subst hsame
      rw [if_pos (beq_self_eq_true id), Option.some.injEq]
      exact ⟨fun hlength => absurd hmade (by omega), fun hreader => absurd hreader h⟩
    · rw [if_neg (by simpa using hsame)]

theorem waiting_prefix_subscribe (b : NoticeBoard) (id i : Nat) :
    b.waiting i <+: (b.subscribe id).2.waiting i := by
  by_cases hmade : i < b.boxes.length
  · rw [waiting_eq, waiting_eq]
    show _ <+: (((b.boxes.join.2)[i]?).map _).getD []
    rw [getElem?_join_of_lt hmade]
  · rw [waiting_eq, List.getElem?_eq_none (Nat.le_of_not_lt hmade)]
    exact List.nil_prefix

/-- What was read does not wait any more; nothing else changes. -/
theorem waiting_take (b : NoticeBoard) (i j : Nat) :
    (b.take i).2.waiting j = if i = j then [] else b.waiting j := by
  rw [waiting_eq, waiting_eq]
  show (((b.boxes.modify i _)[j]?).map _).getD [] = _
  rw [List.getElem?_modify]
  split
  · cases b.boxes[j]? <;> rfl
  · simp

theorem isOpen_take (b : NoticeBoard) (i j : Nat) :
    (b.take i).2.boxes.isOpen j = b.boxes.isOpen j := by
  show ((b.boxes.modify i _)[j]?).any _ = (b.boxes[j]?).any _
  rw [List.getElem?_modify]
  cases b.boxes[j]? with
  | none => rfl
  | some box =>
      simp only [Option.map_eq_map, Option.map_some, Option.any_some]
      split <;> rfl

theorem length_take (b : NoticeBoard) (i : Nat) : (b.take i).2.boxes.length = b.boxes.length :=
  List.length_modify _ _ _

theorem length_close (b : NoticeBoard) (i : Nat) : (b.close i).boxes.length = b.boxes.length :=
  List.length_modify _ _ _

theorem close_spares (hne : i ≠ j) (b : NoticeBoard) : b.Spares (b.close i) j where
  waiting := by
    rw [waiting_eq, waiting_eq]
    show (((b.boxes.modify i _)[j]?).map _).getD [] = _
    rw [List.getElem?_modify]
    simp [hne]
  isOpen := by
    show ((b.boxes.modify i _)[j]?).any _ = (b.boxes[j]?).any _
    rw [List.getElem?_modify]
    simp [hne]
  made := Nat.le_of_eq (b.length_close i).symm
  readers := fun _ => Iff.rfl

end Patchbay.NoticeBoard
