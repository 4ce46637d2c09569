import Patchbay.Proofs.Tables
import Patchbay.Server.Requests

/-!
# Lists of owners

Each connection has a list of the sessions that it owns. Together the lists share out the list of
all sessions, and go on to do so when a session is given to a connection, when one goes and when
a connection goes with all that it owned.
-/
namespace Patchbay

/-- The lists of the owners share `listed` out: each member is in one of them, and once. -/
structure SharedOut (owned : Nat → List Nat) (listed : List Nat) : Prop where
  covers : ∀ id, id ∈ listed ↔ ∃ conn, id ∈ owned conn
  distinct : ∀ conn, (owned conn).Nodup
  separate : ∀ conn conn' id, id ∈ owned conn → id ∈ owned conn' → conn = conn'

namespace SharedOut

variable {owned : Nat → List Nat} {listed : List Nat} {conn id : Nat}

theorem nothing (h : ∀ conn, owned conn = []) : SharedOut owned [] := by
  rw [show owned = fun _ => [] from funext h]
  exact {
    covers := fun id => iff_of_false List.not_mem_nil fun ⟨_, hid⟩ => absurd hid List.not_mem_nil
    distinct := fun _ => List.nodup_nil
    separate := fun _ _ _ hid => absurd hid List.not_mem_nil }

theorem mem (h : SharedOut owned listed) (hid : id ∈ owned conn) : id ∈ listed :=
  (h.covers id).mpr ⟨conn, hid⟩

theorem give (h : SharedOut owned listed) (hid : id ∉ listed) (conn : Nat) :
    SharedOut (fun c => if conn = c then owned conn ++ [id] else owned c) (listed ++ [id]) := by
  have hmem : ∀ c id', id' ∈ (if conn = c then owned conn ++ [id] else owned c) ↔
      id' ∈ owned c ∨ conn = c ∧ id' = id := by
    intro c id'
    split
    · rename_i hsame
      rw [List.mem_append, List.mem_singleton, hsame]
      simp
    · rename_i hne
      simp [hne]
  constructor
  · intro id'
    simp only [hmem]
    rw [List.mem_append, List.mem_singleton, h.covers]
    constructor
    · rintro (⟨c, hmem⟩ | hsame)
      · exact ⟨c, Or.inl hmem⟩
      · exact ⟨conn, Or.inr ⟨rfl, hsame⟩⟩
    · rintro ⟨c, hmem | ⟨-, hsame⟩⟩
      · exact Or.inl ⟨c, hmem⟩
      · exact Or.inr hsame
  · intro c
    split
    · refine List.nodup_append.mpr ⟨h.distinct conn, by simp, ?_⟩
      rintro a ha b hb rfl
      rw [List.mem_singleton] at hb
      exact hid (h.mem (hb ▸ ha))
    · exact h.distinct c
  · intro c₁ c₂ id' h₁ h₂
    rw [hmem] at h₁ h₂
    rcases h₁ with h₁ | ⟨rfl, rfl⟩ <;> rcases h₂ with h₂ | ⟨rfl, hsame⟩
    · exact h.separate c₁ c₂ id' h₁ h₂
    · exact absurd (h.mem (hsame ▸ h₁)) hid
    · exact absurd (h.mem h₂) hid
    · rfl

theorem mem_drop (h : SharedOut owned listed) (hid : id ∈ owned conn) (c id' : Nat) :
    id' ∈ (if conn = c then (owned c).filter (· ≠ id) else owned c) ↔
      id' ∈ owned c ∧ id' ≠ id := by
  split
  · rw [List.mem_filter, decide_eq_true_eq]
  · rename_i hne
    refine ⟨fun hmem => ⟨hmem, ?_⟩, And.left⟩
    rintro rfl
    exact hne (h.separate conn c id' hid hmem)

theorem drop (h : SharedOut owned listed) (hid : id ∈ owned conn) :
    SharedOut (fun c => if conn = c then (owned c).filter (· ≠ id) else owned c)
      (listed.filter (· ≠ id)) := by
  constructor
  · intro id'
    simp only [h.mem_drop hid]
    rw [List.mem_filter, decide_eq_true_eq, h.covers]
    exact ⟨fun ⟨⟨c, hmem⟩, hne⟩ => ⟨c, hmem, hne⟩, fun ⟨c, hmem, hne⟩ => ⟨⟨c, hmem⟩, hne⟩⟩
  · intro c
    split
    · exact (h.distinct c).filter _
    · exact h.distinct c
  · intro c₁ c₂ id' h₁ h₂
    rw [h.mem_drop hid] at h₁ h₂
    exact h.separate c₁ c₂ id' h₁.1 h₂.1

theorem clear (h : SharedOut owned listed) {left : List Nat}
    (hleft : ∀ id, id ∈ left ↔ id ∈ listed ∧ id ∉ owned conn) :
    SharedOut (fun c => if conn = c then [] else owned c) left := by
  have hmem : ∀ c id, id ∈ (if conn = c then [] else owned c) ↔ id ∈ owned c ∧ conn ≠ c := by
    intro c id
    split <;> simp [*]
  constructor
  · intro id
    simp only [hmem]
    rw [hleft, h.covers]
    constructor
    · rintro ⟨⟨c, hid⟩, hnot⟩
      refine ⟨c, hid, ?_⟩
      rintro rfl
      exact hnot hid
    · rintro ⟨c, hid, hne⟩
      exact ⟨⟨c, hid⟩, fun hid' => hne (h.separate conn c id hid' hid)⟩
  · intro c
    split
    · exact List.nodup_nil
    · exact h.distinct c
  · intro c₁ c₂ id h₁ h₂
    rw [hmem] at h₁ h₂
    exact h.separate c₁ c₂ id h₁.1 h₂.1

end SharedOut

namespace Server

variable {conn id : Nat}

/-- The sessions of connections after the list of one was replaced. -/
theorem sessionsOf_put (s : Server) (conn : Nat) (ids : List Nat) (conn' : Nat) :
    sessionsOf { s with owners := s.owners.put conn ids } conn' =
      if conn = conn' then ids else s.sessionsOf conn' := by
  simp only [sessionsOf, Table.get?_put, beq_iff_eq]
  split <;> rfl

theorem sessionsOf_erase (s : Server) (conn conn' : Nat) :
    sessionsOf { s with owners := s.owners.erase conn } conn' =
      if conn = conn' then [] else s.sessionsOf conn' := by
  simp only [sessionsOf, Table.get?_erase, beq_iff_eq]
  split <;> rfl

theorem sessionsOf_filter (s : Server) (conn : Nat) (keep : Nat → Bool) (conn' : Nat) :
    sessionsOf { s with owners := s.owners.modify conn (·.filter keep) } conn' =
      if conn = conn' then (s.sessionsOf conn').filter keep else s.sessionsOf conn' := by
  simp only [sessionsOf, Table.get?_modify, beq_iff_eq]
  split
  · cases s.owners.get? conn' <;> rfl
  · rfl

end Server
end Patchbay
