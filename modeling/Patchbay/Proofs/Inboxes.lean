import Mathlib.Data.List.Basic
import Patchbay.Inbox

/-!
# Queues of readers

What waits for one reader after a message to it, to another or from its queue. Who reads one
message at a time ends up where one who takes all at once does.
-/
namespace Patchbay.Inboxes

variable {α : Type} {bs : Inboxes α} {i j : Nat} {a : α}

/-- What waits for reader `i`. -/
def queued (bs : Inboxes α) (i : Nat) : List α :=
  (bs.take i).1

/-- Reader `i` reads the first that waits. -/
def dropFirst (bs : Inboxes α) (i : Nat) : Inboxes α :=
  bs.modify i fun box => { box with queue := box.queue.tail }

theorem queued_eq (bs : Inboxes α) (i : Nat) : bs.queued i = ((bs[i]?).map (·.queue)).getD [] := rfl

theorem isOpen_eq (bs : Inboxes α) (i : Nat) : bs.isOpen i = (bs[i]?).any (·.isOpen) := rfl

theorem queued_modify_of_ne {f : Inbox α → Inbox α} (h : i ≠ j) :
    queued (bs.modify i f) j = bs.queued j := by
  rw [queued_eq, List.getElem?_modify_ne f bs h]
  rfl

theorem isOpen_modify_of_ne {f : Inbox α → Inbox α} (h : i ≠ j) :
    Inboxes.isOpen (bs.modify i f) j = bs.isOpen j := by
  rw [isOpen_eq, List.getElem?_modify_ne f bs h]
  rfl

theorem isOpen_modify {f : Inbox α → Inbox α} (hf : ∀ box, (f box).isOpen = box.isOpen)
    (i j : Nat) :
    Inboxes.isOpen (bs.modify i f) j = bs.isOpen j := by
  by_cases h : i = j
  · subst h
    rw [isOpen_eq, List.getElem?_modify, isOpen_eq]
    cases bs[i]? with
    | none => rfl
    | some box => simp [hf]
  · exact isOpen_modify_of_ne h

theorem isOpen_sendAll (bs : Inboxes α) (a : α) (i : Nat) :
    (bs.sendAll a).isOpen i = bs.isOpen i := by
  unfold isOpen sendAll
  rw [List.getElem?_map]
  cases bs[i]? with
  | none => rfl
  | some box =>
      show (box.send a).isOpen = box.isOpen
      unfold Inbox.send
      split <;> rfl

theorem take_sendAll (h : bs.isOpen i) (a : α) :
    ((bs.sendAll a).take i).1 = (bs.take i).1 ++ [a] := by
  unfold isOpen at h
  unfold take sendAll
  rw [List.getElem?_map]
  cases hbox : bs[i]? with
  | none =>
      rw [hbox] at h
      cases h
  | some box =>
      rw [hbox] at h
      have hopen : box.isOpen = true := h
      simp [Inbox.send, hopen]

theorem isOpen_join (h : bs.isOpen i) : bs.join.2.isOpen i := by
  unfold isOpen join at *
  cases hbox : bs[i]? with
  | none =>
      rw [hbox] at h
      cases h
  | some box =>
      rw [hbox] at h
      dsimp only
      rw [List.getElem?_append_left (List.getElem?_eq_some_iff.mp hbox).1, hbox]
      exact h

theorem take_join (h : bs.isOpen i) : (bs.join.2.take i).1 = (bs.take i).1 := by
  unfold isOpen at h
  unfold take join
  cases hbox : bs[i]? with
  | none =>
      rw [hbox] at h
      cases h
  | some box =>
      dsimp only
      rw [List.getElem?_append_left (List.getElem?_eq_some_iff.mp hbox).1, hbox]

/-- A new reader finds nothing and gets what is sent from then on. -/
theorem take_join_self (bs : Inboxes α) :
    bs.join.2.isOpen bs.join.1 ∧ (bs.join.2.take bs.join.1).1 = [] := by
  simp [isOpen, join, take]

theorem isOpen_take (bs : Inboxes α) (j i : Nat) : (bs.take j).2.isOpen i = bs.isOpen i :=
  isOpen_modify (f := fun box => { box with queue := [] }) (fun _ => rfl) j i

theorem take_take (bs : Inboxes α) (j i : Nat) :
    ((bs.take j).2.take i).1 = if j = i then [] else (bs.take i).1 := by
  unfold take
  dsimp only
  rw [List.getElem?_modify]
  cases bs[i]? <;> by_cases hsame : j = i <;> simp [hsame]

/-- What one who reads has and what still waits is together what it was. -/
theorem heard_take (heard : List α) (bs : Inboxes α) (j i : Nat) :
    (if j = i then heard ++ (bs.take j).1 else heard) ++ ((bs.take j).2.take i).1 =
      heard ++ (bs.take i).1 := by
  rw [take_take]
  by_cases hsame : j = i
  · rw [if_pos hsame, if_pos hsame, hsame, List.append_nil]
  · rw [if_neg hsame, if_neg hsame]

theorem isOpen_close (hne : j ≠ i) : (bs.close j).isOpen i = bs.isOpen i :=
  isOpen_modify_of_ne hne

theorem take_close (hne : j ≠ i) : ((bs.close j).take i).1 = (bs.take i).1 :=
  queued_modify_of_ne hne

@[simp]
theorem isOpen_sendTo (bs : Inboxes α) (i j : Nat) (a : α) :
    (bs.sendTo i a).isOpen j = bs.isOpen j := by
  refine isOpen_modify (fun box => ?_) i j
  unfold Inbox.send
  split <;> rfl

@[simp]
theorem isOpen_dropFirst (bs : Inboxes α) (i j : Nat) : (bs.dropFirst i).isOpen j = bs.isOpen j :=
  isOpen_modify (f := fun box => { box with queue := box.queue.tail }) (fun _ => rfl) i j

theorem queued_sendTo (h : bs.isOpen i) : (bs.sendTo i a).queued i = bs.queued i ++ [a] := by
  rw [isOpen_eq] at h
  rw [queued_eq, sendTo, List.getElem?_modify, queued_eq]
  cases hbox : bs[i]? with
  | none =>
      rw [hbox] at h
      cases h
  | some box =>
      rw [hbox] at h
      have hopen : box.isOpen = true := h
      simp [Inbox.send, hopen]

theorem queued_dropFirst (bs : Inboxes α) (i : Nat) :
    (bs.dropFirst i).queued i = (bs.queued i).tail := by
  rw [queued_eq, dropFirst, List.getElem?_modify, queued_eq]
  cases bs[i]? <;> simp

@[simp]
theorem close_modify (bs : Inboxes α) (i : Nat) (f : Inbox α → Inbox α) :
    Inboxes.close (bs.modify i f) i = bs.close i := by
  rw [close, List.modify_modify_eq]
  rfl

theorem queued_close (bs : Inboxes α) (i : Nat) : (bs.close i).queued i = [] := by
  rw [queued_eq, close, List.getElem?_modify]
  cases bs[i]? <;> simp

theorem set_eq_dropFirst {l : List α} {o : Bool} (h : bs[i]? = some ⟨a :: l, o⟩) :
    bs.set i ⟨l, o⟩ = bs.dropFirst i := by
  refine List.ext_getElem? fun j => ?_
  rw [dropFirst, List.getElem?_modify, List.getElem?_set]
  by_cases hj : i = j
  · subst hj
    have hlt := (List.getElem?_eq_some_iff.mp h).1
    rw [if_pos rfl, if_pos hlt, h]
    simp
  · simp [hj]

theorem take_dropFirst (bs : Inboxes α) (i : Nat) :
    (bs.dropFirst i).take i = ((bs.queued i).tail, (bs.take i).2) := by
  refine Prod.ext (queued_dropFirst bs i) ?_
  show (bs.dropFirst i).modify i _ = bs.modify i _
  rw [dropFirst, List.modify_modify_eq]
  rfl

theorem take_of_queued_nil (h : bs.queued i = []) : bs.take i = ([], bs) := by
  refine Prod.ext h ?_
  refine List.ext_getElem? fun j => ?_
  show (bs.modify i _)[j]? = _
  rw [List.getElem?_modify]
  by_cases hj : i = j
  · subst hj
    rw [queued_eq] at h
    cases hbox : bs[i]? with
    | none => rfl
    | some box =>
        rw [hbox] at h
        have hqueue : box.queue = [] := h
        simp [← hqueue]
  · simp [hj]

end Patchbay.Inboxes
