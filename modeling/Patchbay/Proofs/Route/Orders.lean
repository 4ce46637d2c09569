import Mathlib.Data.List.Nodup
import Patchbay.Proofs.Route.Registrations

/-!
# The order in which sessions are visited

Nothing fixes the order in which a change visits the registered sessions. A visit reads and
changes what belongs to its own session, so two visits that change places leave the same sessions,
decisions and notices behind. What they share is the active output: each output that is handed
out takes the place of the one before, so the last in the order stays.
-/
namespace Patchbay

/-- If steps for different keys can change places, so can the elements of a list with distinct
keys. -/
theorem foldl_alike {σ α κ : Type} {f : σ → α → σ} {key : α → κ} {P : σ → Prop}
    {Alike : σ → σ → Prop} (hrefl : ∀ s, Alike s s)
    (htrans : ∀ s s' s'', Alike s s' → Alike s' s'' → Alike s s'')
    (hkept : ∀ s a, P s → P (f s a))
    (hstep : ∀ s s' a, Alike s s' → Alike (f s a) (f s' a))
    (hswap : ∀ s a a', P s → key a ≠ key a' → Alike (f (f s a) a') (f (f s a') a))
    {l l' : List α} (h : l.Perm l') (hl : (l.map key).Nodup) {s s' : σ} (hs : P s)
    (hsame : Alike s s') : Alike (l.foldl f s) (l'.foldl f s') := by
  have hfold : ∀ (l : List α) (s s' : σ), Alike s s' → Alike (l.foldl f s) (l.foldl f s') := by
    intro l
    induction l with
    | nil => exact fun s s' hsame => hsame
    | cons a l ih => exact fun s s' hsame => ih _ _ (hstep s s' a hsame)
  induction h generalizing s s' with
  | nil => exact hsame
  | cons a _ ih => exact ih (List.nodup_cons.mp hl).2 (hkept s a hs) (hstep s s' a hsame)
  | swap a b l =>
      have hne : key b ≠ key a := by
        intro hkey
        refine (List.nodup_cons.mp hl).1 ?_
        rw [hkey]
        exact List.mem_cons_self
      exact hfold l _ _ (htrans _ _ _ (hswap s b a hs hne) (hstep _ _ b (hstep _ _ a hsame)))
  | trans first _ ih ih' =>
      have hl' := (first.map key).nodup_iff.mp hl
      exact htrans _ _ _ (ih hl hs (hrefl s)) (ih' hl' hs hsame)

namespace Table

variable {κ α : Type}

/-- The same entries, in another order. -/
def reorder (t : Table κ α) (order : List (κ × α)) (h : order.Perm t.toList) : Table κ α where
  toList := order
  distinct := (h.map _).nodup_iff.mpr t.distinct

variable [DecidableEq κ] {t t' : Table κ α} {k k' : κ} {v v' : α}

theorem erase_perm (h : t.Perm t') (k : κ) : (t.erase k).Perm (t'.erase k) :=
  h.filter _

theorem erase_comm (t : Table κ α) (k k' : κ) : (t.erase k).erase k' = (t.erase k').erase k := by
  refine Table.ext ?_
  simp only [erase, filter, List.filter_filter]
  exact List.filter_congr fun e _ => Bool.and_comm _ _

theorem get?_perm (h : t.Perm t') (k : κ) : t.get? k = t'.get? k := by
  ext v
  rw [get?_eq_some_iff, get?_eq_some_iff, h.mem_iff]

theorem perm_of_get? (h : ∀ k, t.get? k = t'.get? k) : t.Perm t' := by
  refine (List.perm_ext_iff_of_nodup (.of_map _ t.distinct) (.of_map _ t'.distinct)).mpr ?_
  rintro ⟨k, v⟩
  rw [← get?_eq_some_iff, h, get?_eq_some_iff]

theorem put_perm (h : t.Perm t') (k : κ) (v : α) : (t.put k v).Perm (t'.put k v) :=
  perm_of_get? fun k' => by rw [get?_put, get?_put, get?_perm h]

/-- Two entries that are there already are replaced in either order. -/
theorem put_comm (hk : t.has k) (hk' : t.has k') (hne : k ≠ k') (v v' : α) :
    (t.put k v).put k' v' = (t.put k' v').put k v := by
  have hput : ∀ {t : Table κ α} {k : κ} (v : α), t.has k → t.put k v = t.modify k fun _ => v :=
    fun v hk => Table.ext (toList_put_of_has hk v)
  rw [hput v hk, hput v' hk', hput v' (by rwa [has_modify]), hput v (by rwa [has_modify])]
  refine Table.ext ?_
  simp only [modify, mapValues, List.map_map]
  refine List.map_congr_left fun e _ => ?_
  by_cases he : e.1 = k
  · subst he
    simp [hne]
  · by_cases he' : e.1 = k' <;> simp [he, he', hne.symm]

end Table

namespace Registry

variable {reg reg' : Registry} {id id' : Nat} {d d' : Device}

/-- The registry after session `id` was offered a device. -/
def offer (reg : Registry) (id : Nat) (d : Device) : Registry :=
  (reg.apply id (·.bind d)).2

/-- Why session `id` refuses a device; none if it takes it. -/
def refusal? (reg : Registry) (id : Nat) (d : Device) : Option String :=
  match (reg.apply id (·.bind d)).1 with
  | .error e => some (Switchboard.deadReason (reg.offer id d) id e)
  | .ok _ => none

theorem offer_of_any? {s : Session} (hs : reg.any? id = some s) :
    reg.offer id d = reg.store (s.bind d).2 := by
  rw [offer, apply_of_any? hs]

theorem offer_of_none (h : reg.any? id = none) : reg.offer id d = reg := by
  rw [offer, apply, h]

theorem Numbered.offer (hr : reg.Numbered) (id : Nat) (d : Device) : (reg.offer id d).Numbered :=
  (reg.apply_goesOn hr id fun s => s.goesOn_bind d).numbered hr

theorem Numbered.any?_offer (hr : reg.Numbered) (id : Nat) (d : Device) (id' : Nat) :
    (reg.offer id d).any? id' =
      if id = id' then (reg.any? id).map fun s => (s.bind d).2 else reg.any? id' := by
  cases hs : reg.any? id with
  | none =>
      rw [offer_of_none hs]
      split
      · rename_i hsame
        rw [← hsame, hs, Option.map_none]
      · rfl
  | some s =>
      rw [offer_of_any? hs, any?_store, (s.goesOn_bind d).id, (hr id s hs).1, Option.map_some]

theorem Numbered.refusal?_congr (hr : reg.Numbered) (hr' : reg'.Numbered)
    (h : reg.any? id = reg'.any? id) : reg.refusal? id d = reg'.refusal? id d := by
  have hanswer : (reg.apply id (·.bind d)).1 = (reg'.apply id (·.bind d)).1 := by
    unfold apply
    rw [h]
    cases reg'.any? id <;> rfl
  have hany : (reg.offer id d).any? id = (reg'.offer id d).any? id := by
    rw [hr.any?_offer, hr'.any?_offer, h]
  unfold refusal? Switchboard.deadReason
  rw [hanswer, hany]

theorem Numbered.refusal?_offer (hr : reg.Numbered) (hne : id ≠ id') :
    (reg.offer id d).refusal? id' d' = reg.refusal? id' d' := by
  refine (hr.offer id d).refusal?_congr hr ?_
  rw [hr.any?_offer, if_neg hne]

theorem Numbered.offer_comm (hr : reg.Numbered) (hne : id ≠ id') (d d' : Device) :
    (reg.offer id d).offer id' d' = (reg.offer id' d').offer id d := by
  have hkept : (reg.offer id d).any? id' = reg.any? id' := by
    rw [hr.any?_offer, if_neg hne]
  have hkept' : (reg.offer id' d').any? id = reg.any? id := by
    rw [hr.any?_offer, if_neg hne.symm]
  cases hs : reg.any? id with
  | none => rw [offer_of_none hs, offer_of_none (hkept'.trans hs)]
  | some s =>
      cases hs' : reg.any? id' with
      | none => rw [offer_of_none hs', offer_of_none (hkept.trans hs')]
      | some s' =>
          have hid : (s.bind d).2.id = id := (s.goesOn_bind d).id.trans (hr id s hs).1
          have hid' : (s'.bind d').2.id = id' := (s'.goesOn_bind d').id.trans (hr id' s' hs').1
          have hhas : reg.sessions.has id := (Table.has_iff _ _).mpr ⟨s, hs⟩
          have hhas' : reg.sessions.has id' := (Table.has_iff _ _).mpr ⟨s', hs'⟩
          rw [offer_of_any? (hkept.trans hs'), offer_of_any? (hkept'.trans hs), offer_of_any? hs,
            offer_of_any? hs']
          unfold store
          dsimp only
          rw [hid, hid', Table.put_comm hhas hhas' hne]

end Registry

namespace NoticeBoard

variable {b : NoticeBoard} {id id' : Nat}

theorem sendTo_comm (bs : Inboxes SessionNotice) {i j : Nat} (hne : i ≠ j) (n n' : SessionNotice) :
    (bs.sendTo i n).sendTo j n' = (bs.sendTo j n').sendTo i n := by
  unfold Inboxes.sendTo
  refine List.ext_getElem? fun k => ?_
  simp only [List.getElem?_modify]
  cases bs[k]? with
  | none => rfl
  | some box => by_cases hi : i = k <;> by_cases hj : j = k <;> simp_all

theorem notify_eq (b : NoticeBoard) (id : Nat) (n : SessionNotice) :
    (b.notify id n).2 = match b.readers.get? id with
      | none => b
      | some i =>
        if b.boxes.isOpen i then { b with boxes := b.boxes.sendTo i n }
        else { b with readers := b.readers.erase id } := by
  unfold notify
  cases b.readers.get? id with
  | none => rfl
  | some i =>
      dsimp only
      split <;> rfl

theorem get?_readers_notify (hne : id ≠ id') (n : SessionNotice) :
    (b.notify id n).2.readers.get? id' = b.readers.get? id' := by
  rcases b.notify_cases id n with ⟨-, hsame⟩ | ⟨i, -, ⟨-, hforget⟩ | ⟨-, hsend⟩⟩
  · rw [hsame]
  · rw [hforget, Table.get?_erase, if_neg (by simpa using hne)]
  · rw [hsend]

theorem isOpen_notify (b : NoticeBoard) (id : Nat) (n : SessionNotice) (i : Nat) :
    (b.notify id n).2.boxes.isOpen i = b.boxes.isOpen i := by
  rcases b.notify_cases id n with ⟨-, hsame⟩ | ⟨i, -, ⟨-, hforget⟩ | ⟨-, hsend⟩⟩
  · rw [hsame]
  · rw [hforget]
  · rw [hsend, isOpen_sendTo]

theorem Sound.notify_comm (h : b.Sound) (hne : id ≠ id') (n n' : SessionNotice) :
    ((b.notify id n).2.notify id' n').2 = ((b.notify id' n').2.notify id n).2 := by
  rw [notify_eq (b.notify id n).2 id' n', get?_readers_notify hne,
    notify_eq (b.notify id' n').2 id n, get?_readers_notify hne.symm]
  simp only [isOpen_notify]
  rw [notify_eq b id n, notify_eq b id' n']
  cases hreader : b.readers.get? id with
  | none => rfl
  | some i =>
      cases hreader' : b.readers.get? id' with
      | none => rfl
      | some j =>
          have hij : i ≠ j := by
            rintro rfl
            exact hne (h.distinct id id' i hreader hreader')
          dsimp only
          by_cases hi : b.boxes.isOpen i <;> by_cases hj : b.boxes.isOpen j <;>
            simp [hi, hj, sendTo_comm _ hij, Table.erase_comm _ id id']

theorem notify_remove_comm (b : NoticeBoard) (hne : id ≠ id') (n : SessionNotice) :
    ((b.remove id').2.notify id n).2 = ((b.notify id n).2.remove id').2 := by
  have hget : (b.remove id').2.readers.get? id = b.readers.get? id := by
    show (b.readers.erase id').get? id = _
    rw [Table.get?_erase, if_neg (by simpa using hne.symm)]
  rw [notify_eq, hget, notify_eq]
  unfold remove
  cases b.readers.get? id with
  | none => rfl
  | some i =>
      dsimp only
      by_cases hi : b.boxes.isOpen i
      · simp [hi]
      · simp [hi, Table.erase_comm _ id id']

end NoticeBoard

namespace Switchboard

/-- Switchboards that differ in the order of their entries and in the active output at most. -/
structure Alike (b b' : Switchboard) : Prop where
  chains : b.chains = b'.chains
  entries : b.entries.Perm b'.entries
  board : b.board = b'.board

/-- Where a change sends the session of an entry; none if it stays where it is. -/
def target? (b : Switchboard) (r : Roster) (change : DeviceChange) (e : RouteEntry) :
    Option Device :=
  let current := b.chains.route r e.intent e.uid
  if !change.touchesRole e.intent.role ||
    (current.sameEndpoint e.decision.device && current.role = e.decision.device.role) then none
  else some current

/-- The output that the visit of an entry hands out. -/
def handsOut? (b : Switchboard) (r : Roster) (reg : Registry) (change : DeviceChange)
    (p : Nat × RouteEntry) : Option Device :=
  match b.target? r change p.2 with
  | none => none
  | some d =>
    if (reg.refusal? p.1 d).isNone && p.2.intent.role = .output && !d.isNone then some d else none

/-- The session that the visit of an entry gives up, with the reason. -/
def givesUp? (b : Switchboard) (r : Roster) (reg : Registry) (change : DeviceChange)
    (p : Nat × RouteEntry) : Option (Nat × String) :=
  match b.target? r change p.2 with
  | none => none
  | some d => (reg.refusal? p.1 d).map fun reason => (p.1, reason)

/-- Offers the session of an entry a device. -/
def Sweep.offer (w : Sweep) (generation : Nat) (id : Nat) (e : RouteEntry) (d : Device) : Sweep :=
  match w.registry.refusal? id d with
  | some reason =>
    { w with registry := w.registry.offer id d, dead := w.dead ++ [(id, reason)] }
  | none =>
    { w with
      registry := w.registry.offer id d
      moved := w.moved + 1
      board := { w.board.noteOutput e.intent d with
        entries := w.board.entries.put id { e with decision := ⟨d, generation⟩ }
        board := (w.board.board.notify id (.deviceChanged id e.decision.device d)).2 } }

/-- Sweeps that differ in the order of their lists and in the active output at most. -/
structure Sweep.Alike (w w' : Sweep) : Prop where
  board : w.board.Alike w'.board
  registry : w.registry = w'.registry
  moved : w.moved = w'.moved
  dead : w.dead.Perm w'.dead

/-- What two visits need to change places. -/
structure Sweep.Good (w : Sweep) : Prop where
  numbered : w.registry.Numbered
  board : w.board.board.Sound

variable {b b' b'' : Switchboard} {r : Roster} {reg : Registry} {change : DeviceChange}
variable {w w' w'' : Sweep} {id id' generation : Nat} {e e' : RouteEntry} {d d' : Device}

theorem Alike.refl (b : Switchboard) : b.Alike b := ⟨rfl, .refl _, rfl⟩

theorem Alike.trans (h : b.Alike b') (h' : b'.Alike b'') : b.Alike b'' :=
  ⟨h.chains.trans h'.chains, h.entries.trans h'.entries, h.board.trans h'.board⟩

theorem Sweep.Alike.refl (w : Sweep) : w.Alike w := ⟨.refl _, rfl, rfl, .refl _⟩

theorem Sweep.Alike.trans (h : w.Alike w') (h' : w'.Alike w'') : w.Alike w'' :=
  ⟨h.board.trans h'.board, h.registry.trans h'.registry, h.moved.trans h'.moved,
    h.dead.trans h'.dead⟩

theorem target?_congr (h : b.chains = b'.chains) (r : Roster) (change : DeviceChange)
    (e : RouteEntry) : b.target? r change e = b'.target? r change e := by
  unfold target?
  rw [h]

theorem Sweep.visit_eq (r : Roster) (change : DeviceChange) (w : Sweep) (id : Nat)
    (e : RouteEntry) : w.visit r change (id, e) = match w.board.target? r change e with
      | none => w
      | some d => w.offer change.generation id e d := by
  unfold Sweep.visit target? Sweep.offer Registry.refusal? Registry.offer
  dsimp only
  by_cases htouches : change.touchesRole e.intent.role
  · rw [if_neg (by simp [htouches])]
    split
    · rename_i hsame
      rw [if_pos (by simpa [htouches] using hsame)]
    · rename_i hsame
      rw [if_neg (by simpa [htouches] using hsame)]
      dsimp only
      split
      · rename_i h
        simp [h]
      · rename_i h
        simp [h]
  · simp [htouches]

@[simp]
theorem Sweep.registry_offer (w : Sweep) (generation id : Nat) (e : RouteEntry) (d : Device) :
    (w.offer generation id e d).registry = w.registry.offer id d := by
  unfold Sweep.offer
  split <;> rfl

@[simp]
theorem Sweep.chains_offer (w : Sweep) (generation id : Nat) (e : RouteEntry) (d : Device) :
    (w.offer generation id e d).board.chains = w.board.chains := by
  unfold Sweep.offer
  split
  · rfl
  · exact chains_noteOutput _ _ _

theorem Sweep.Good.offer (h : w.Good) (generation id : Nat) (e : RouteEntry) (d : Device) :
    (w.offer generation id e d).Good := by
  refine ⟨?_, ?_⟩
  · rw [registry_offer]
    exact h.numbered.offer id d
  · unfold Sweep.offer
    split
    · exact h.board
    · exact h.board.notify id _

theorem Sweep.Alike.offer (h : w.Alike w') (generation id : Nat) (e : RouteEntry) (d : Device) :
    (w.offer generation id e d).Alike (w'.offer generation id e d) := by
  unfold Sweep.offer
  rw [← h.registry]
  cases w.registry.refusal? id d with
  | some reason => exact ⟨h.board, rfl, h.moved, h.dead.append_right _⟩
  | none =>
      refine ⟨⟨?_, ?_, ?_⟩, rfl, ?_, h.dead⟩
      · dsimp only
        rw [chains_noteOutput, chains_noteOutput, h.board.chains]
      · exact Table.put_perm h.board.entries _ _
      · dsimp only
        rw [h.board.board]
      · dsimp only
        rw [h.moved]

theorem Sweep.Good.offer_swap (h : w.Good) (hne : id ≠ id') (generation : Nat)
    (e e' : RouteEntry) (d d' : Device) :
    ((w.offer generation id e d).offer generation id' e' d').Alike
      ((w.offer generation id' e' d').offer generation id e d) := by
  have hregistry := h.numbered.offer_comm hne d d'
  have hanswer : (w.registry.offer id d).refusal? id' d' = w.registry.refusal? id' d' :=
    h.numbered.refusal?_offer hne
  have hanswer' : (w.registry.offer id' d').refusal? id d = w.registry.refusal? id d :=
    h.numbered.refusal?_offer hne.symm
  unfold Sweep.offer
  cases hrefusal : w.registry.refusal? id d with
  | some reason =>
      cases hrefusal' : w.registry.refusal? id' d' with
      | some reason' =>
          simp only [hanswer, hanswer', hrefusal, hrefusal']
          refine ⟨.refl _, hregistry, rfl, ?_⟩
          rw [List.append_assoc, List.append_assoc]
          exact (List.Perm.swap _ _ _).append_left _
      | none =>
          simp only [hanswer, hanswer', hrefusal, hrefusal']
          exact ⟨.refl _, hregistry, rfl, .refl _⟩
  | none =>
      cases hrefusal' : w.registry.refusal? id' d' with
      | some reason' =>
          simp only [hanswer, hanswer', hrefusal, hrefusal']
          exact ⟨.refl _, hregistry, rfl, .refl _⟩
      | none =>
          simp only [hanswer, hanswer', hrefusal, hrefusal']
          refine ⟨⟨?_, ?_, ?_⟩, hregistry, rfl, .refl _⟩
          · simp only [chains_noteOutput]
          · refine Table.perm_of_get? fun k => ?_
            simp only [Table.get?_put]
            by_cases hk : id' = k
            · subst hk
              simp [hne]
            · simp [hk]
          · exact h.board.notify_comm hne _ _

theorem Sweep.Good.visit (h : w.Good) (r : Roster) (change : DeviceChange)
    (p : Nat × RouteEntry) : (w.visit r change p).Good := by
  rw [w.visit_eq]
  split
  · exact h
  · exact h.offer _ _ _ _

theorem Sweep.Alike.visit (h : w.Alike w') (r : Roster) (change : DeviceChange)
    (p : Nat × RouteEntry) : (w.visit r change p).Alike (w'.visit r change p) := by
  rw [w.visit_eq, w'.visit_eq, target?_congr h.board.chains]
  split
  · exact h
  · exact h.offer _ _ _ _

theorem Sweep.chains_visit (r : Roster) (change : DeviceChange) (w : Sweep)
    (p : Nat × RouteEntry) : (w.visit r change p).board.chains = w.board.chains := by
  rw [w.visit_eq]
  split
  · rfl
  · exact chains_offer _ _ _ _ _

theorem Sweep.Good.visit_swap (h : w.Good) (r : Roster) (change : DeviceChange)
    (p p' : Nat × RouteEntry) (hne : p.1 ≠ p'.1) :
    ((w.visit r change p).visit r change p').Alike ((w.visit r change p').visit r change p) := by
  have htarget : ∀ p q, (w.visit r change p).board.target? r change q =
      w.board.target? r change q :=
    fun p q => target?_congr (w.chains_visit r change p) r change q
  rw [Sweep.visit_eq r change (w.visit r change p), Sweep.visit_eq r change (w.visit r change p'),
    htarget, htarget, w.visit_eq r change p.1 p.2, w.visit_eq r change p'.1 p'.2]
  cases w.board.target? r change p.2 with
  | none => exact .refl _
  | some d =>
      cases w.board.target? r change p'.2 with
      | none => exact .refl _
      | some d' => exact h.offer_swap hne _ _ _ _ _

theorem Sweep.Good.foldl (h : w.Good) (r : Roster) (change : DeviceChange)
    (order : List (Nat × RouteEntry)) : (order.foldl (Sweep.visit r change) w).Good := by
  induction order generalizing w with
  | nil => exact h
  | cons p rest ih => exact ih (h.visit r change p)

theorem Sweep.chains_foldl (r : Roster) (change : DeviceChange) (w : Sweep)
    (order : List (Nat × RouteEntry)) :
    (order.foldl (Sweep.visit r change) w).board.chains = w.board.chains := by
  induction order generalizing w with
  | nil => rfl
  | cons p rest ih => exact (ih _).trans (w.chains_visit r change p)

theorem Sweep.fates_visit (hr : w.registry.Numbered) (r : Roster) (change : DeviceChange)
    {p q : Nat × RouteEntry} (hne : p.1 ≠ q.1) :
    (w.visit r change p).board.handsOut? r (w.visit r change p).registry change q =
        w.board.handsOut? r w.registry change q ∧
      (w.visit r change p).board.givesUp? r (w.visit r change p).registry change q =
        w.board.givesUp? r w.registry change q := by
  have hrefusal : ∀ d, (w.visit r change p).registry.refusal? q.1 d =
      w.registry.refusal? q.1 d := by
    intro d
    rw [w.visit_eq]
    split
    · rfl
    · rw [registry_offer]
      exact hr.refusal?_offer hne
  unfold handsOut? givesUp?
  simp only [target?_congr (w.chains_visit r change p), hrefusal, and_self]

theorem Sweep.visit_fates (r : Roster) (change : DeviceChange) (w : Sweep)
    (p : Nat × RouteEntry) :
    (w.visit r change p).board.activeOutput =
        (w.board.handsOut? r w.registry change p).getD w.board.activeOutput ∧
      (w.visit r change p).dead = w.dead ++ (w.board.givesUp? r w.registry change p).toList := by
  rw [w.visit_eq]
  unfold handsOut? givesUp? Sweep.offer noteOutput
  cases w.board.target? r change p.2 with
  | none => simp
  | some d =>
      dsimp only
      cases w.registry.refusal? p.1 d with
      | some reason => simp
      | none =>
          by_cases hout : p.2.intent.role = .output <;> by_cases hnone : d.isNone <;>
            simp_all

/-- The sessions that a sweep gives up and the last output that it hands out. -/
theorem Sweep.Good.foldl_fates (h : w.Good) (r : Roster) (change : DeviceChange)
    {order : List (Nat × RouteEntry)} (hdistinct : (order.map Prod.fst).Nodup) :
    (order.foldl (Sweep.visit r change) w).board.activeOutput =
        (order.filterMap (w.board.handsOut? r w.registry change)).getLastD
          w.board.activeOutput ∧
      (order.foldl (Sweep.visit r change) w).dead =
        w.dead ++ order.filterMap (w.board.givesUp? r w.registry change) := by
  induction order generalizing w with
  | nil => simp
  | cons p rest ih =>
      obtain ⟨hnot, hdistinct⟩ := List.nodup_cons.mp hdistinct
      obtain ⟨houtput, hdead⟩ := ih (h.visit r change p) hdistinct
      obtain ⟨hfirst, hfirst'⟩ := w.visit_fates r change p
      -- No later visit is to the session of `p`, so all are as they were before its own.
      have hne : ∀ q ∈ rest, p.1 ≠ q.1 :=
        fun q hq hsame => hnot (hsame ▸ List.mem_map_of_mem hq)
      have hhands : rest.filterMap ((w.visit r change p).board.handsOut? r
          (w.visit r change p).registry change) =
          rest.filterMap (w.board.handsOut? r w.registry change) :=
        List.filterMap_congr fun q hq => (fates_visit h.numbered r change (hne q hq)).1
      have hgives : rest.filterMap ((w.visit r change p).board.givesUp? r
          (w.visit r change p).registry change) =
          rest.filterMap (w.board.givesUp? r w.registry change) :=
        List.filterMap_congr fun q hq => (fates_visit h.numbered r change (hne q hq)).2
      rw [List.foldl_cons, houtput, hdead, hfirst, hfirst', hhands, hgives, List.filterMap_cons,
        List.filterMap_cons]
      constructor
      · cases w.board.handsOut? r w.registry change p with
        | none => rfl
        | some d => rw [List.getLastD_cons]; rfl
      · cases w.board.givesUp? r w.registry change p with
        | none => simp
        | some gone => simp

theorem givesUp?_fst {p : Nat × RouteEntry} {gone : Nat × String}
    (h : b.givesUp? r reg change p = some gone) : gone.1 = p.1 := by
  unfold givesUp? at h
  split at h
  · cases h
  · obtain ⟨reason, -, rfl⟩ := Option.map_eq_some_iff.mp h
    rfl

theorem nodup_givesUp (b : Switchboard) (r : Roster) (reg : Registry) (change : DeviceChange)
    {order : List (Nat × RouteEntry)} (hdistinct : (order.map Prod.fst).Nodup) :
    ((order.filterMap (b.givesUp? r reg change)).map Prod.fst).Nodup := by
  induction order with
  | nil => exact List.nodup_nil
  | cons p rest ih =>
      obtain ⟨hnot, hdistinct⟩ := List.nodup_cons.mp hdistinct
      rw [List.filterMap_cons]
      split
      · exact ih hdistinct
      · rename_i gone hgone
        rw [List.map_cons, List.nodup_cons, givesUp?_fst hgone]
        refine ⟨fun hmem => hnot ?_, ih hdistinct⟩
        obtain ⟨gone', hgone', hsame⟩ := List.mem_map.mp hmem
        obtain ⟨q, hq, hgone'⟩ := List.mem_filterMap.mp hgone'
        rw [← hsame, givesUp?_fst hgone']
        exact List.mem_map_of_mem hq

theorem Alike.tearDown (h : b.Alike b') (id : Nat) (reason : String) :
    (b.tearDown id reason).Alike (b'.tearDown id reason) where
  chains := h.chains
  entries := Table.erase_perm h.entries id
  board := by
    unfold Switchboard.tearDown
    rw [h.board]

theorem tearDown_swap (hb : b.board.Sound) (hne : id ≠ id') (reason reason' : String) :
    ((b.tearDown id reason).tearDown id' reason').Alike
      ((b.tearDown id' reason').tearDown id reason) where
  chains := rfl
  entries := by
    rw [entries_tearDown, entries_tearDown, entries_tearDown, entries_tearDown,
      Table.erase_comm]
  board := by
    unfold Switchboard.tearDown
    dsimp only
    rw [NoticeBoard.notify_remove_comm _ hne.symm, NoticeBoard.notify_remove_comm _ hne,
      hb.notify_comm hne]
    unfold NoticeBoard.remove
    dsimp only
    rw [Table.erase_comm]

/-- Sessions can be given up in any order. -/
theorem Alike.foldl_tearDown (h : b.Alike b') (hb : b.board.Sound)
    {dead dead' : List (Nat × String)} (hdead : dead.Perm dead') (hdistinct : (dead.map Prod.fst).Nodup) :
    (dead.foldl (fun b p => b.tearDown p.1 p.2) b).Alike
      (dead'.foldl (fun b p => b.tearDown p.1 p.2) b') :=
  foldl_alike (P := fun b => b.board.Sound) Alike.refl (fun _ _ _ => Alike.trans)
    (fun _ p hb => (hb.notify p.1 _).remove p.1) (fun _ _ p h => h.tearDown p.1 p.2)
    (fun _ _ _ hb hne => tearDown_swap hb hne _ _) hdead hdistinct hb h

theorem activeOutput_foldl_tearDown (b : Switchboard) (dead : List (Nat × String)) :
    (dead.foldl (fun b p => b.tearDown p.1 p.2) b).activeOutput = b.activeOutput := by
  induction dead generalizing b with
  | nil => rfl
  | cons gone dead ih => exact ih (b.tearDown gone.1 gone.2)

/-- The output that is left as the active one by a change when `d` was before: music's if it went
away. -/
def settledOutput (b : Switchboard) (r : Roster) (change : DeviceChange) (d : Device) : Device :=
  if change.kind = .disconnected && d.sameEndpoint change.device then
    b.chains.route r (.render .music) 0
  else d

/-- The change as it is handled when the entries are visited in the given order. -/
def handleInOrder (b : Switchboard) (order : Table Nat RouteEntry) (r : Roster) (reg : Registry)
    (change : DeviceChange) : Nat × Switchboard × Registry :=
  { b with entries := order }.handleChange r reg change

theorem handleInOrder_alike (hr : reg.Numbered) (hb : b.board.Sound)
    {order order' : Table Nat RouteEntry} (h : order.Perm b.entries)
    (h' : order'.Perm b.entries) (r : Roster) (change : DeviceChange) :
    (b.handleInOrder order r reg change).1 = (b.handleInOrder order' r reg change).1 ∧
      (b.handleInOrder order r reg change).2.1.Alike (b.handleInOrder order' r reg change).2.1 ∧
      (b.handleInOrder order r reg change).2.2 = (b.handleInOrder order' r reg change).2.2 := by
  have hperm : order.Perm order' := h.trans h'.symm
  have hgood : Sweep.Good { board := { b with entries := order }, registry := reg } :=
    ⟨hr, hb⟩
  have hstart : Sweep.Alike { board := { b with entries := order }, registry := reg }
      { board := { b with entries := order' }, registry := reg } :=
    ⟨⟨rfl, hperm, rfl⟩, rfl, rfl, .refl _⟩
  have hsweep := foldl_alike Sweep.Alike.refl (fun _ _ _ => Sweep.Alike.trans)
    (fun _ p h => Sweep.Good.visit h r change p) (fun _ _ p h => h.visit r change p)
    (fun _ p p' h hne => h.visit_swap r change p p' hne) hperm order.distinct hgood hstart
  have hswept := hgood.foldl r change order.toList
  have hdead := (hgood.foldl_fates r change order.distinct).2
  have hdown := hsweep.board.foldl_tearDown hswept.board hsweep.dead (by
    rw [hdead]
    exact nodup_givesUp _ _ _ _ order.distinct)
  unfold handleInOrder handleChange
  refine ⟨hsweep.moved, ?_, hsweep.registry⟩
  dsimp only
  constructor
  · split <;> split <;> exact hdown.chains
  · split <;> split <;> exact hdown.entries
  · split <;> split <;> exact hdown.board

/-- The output handed out last stays, unless it is the one that goes away. -/
theorem activeOutput_handleInOrder (hr : reg.Numbered) (hb : b.board.Sound)
    (order : Table Nat RouteEntry)
    (r : Roster) (change : DeviceChange) :
    (b.handleInOrder order r reg change).2.1.activeOutput =
      b.settledOutput r change
        ((order.toList.filterMap (b.handsOut? r reg change)).getLastD b.activeOutput) := by
  have hgood : Sweep.Good { board := { b with entries := order }, registry := reg } :=
    ⟨hr, hb⟩
  have houtput := (hgood.foldl_fates r change order.distinct).1
  have hchains := Sweep.chains_foldl r change
    { board := { b with entries := order }, registry := reg } order.toList
  unfold handleInOrder handleChange settledOutput
  dsimp only at houtput hchains ⊢
  generalize order.toList.foldl (Sweep.visit r change)
    { board := { b with entries := order }, registry := reg } = w at houtput hchains ⊢
  have hdown := (Switchboard.foldl_tearDown w.board w.dead).1.trans hchains
  have hkept := (activeOutput_foldl_tearDown w.board w.dead).trans houtput
  generalize w.dead.foldl (fun b p => b.tearDown p.1 p.2) w.board = b' at hdown hkept
  have hhands : Switchboard.handsOut? { b with entries := order } r reg change =
      b.handsOut? r reg change := rfl
  rw [hhands] at hkept
  rw [← hkept, ← hdown]
  split <;> rfl

/-- The outputs that a change hands out come to the same in the end. -/
def OneOutput (b : Switchboard) (r : Roster) (reg : Registry) (change : DeviceChange) : Prop :=
  ∀ p ∈ b.entries.toList, ∀ q ∈ b.entries.toList, ∀ d d', b.handsOut? r reg change p = some d →
    b.handsOut? r reg change q = some d' → b.settledOutput r change d = b.settledOutput r change d'

/-- Whichever entry one likes can come last. -/
theorem exists_order_ending {t : Table Nat RouteEntry} {p : Nat × RouteEntry}
    (h : p ∈ t.toList) :
    ∃ order : Table Nat RouteEntry, order.Perm t ∧ ∃ first, order.toList = first ++ [p] := by
  obtain ⟨first, rest, hlist⟩ := List.append_of_mem h
  have hperm : (first ++ rest ++ [p]).Perm t.toList := by
    have hlast : (rest ++ [p]).Perm (p :: rest) := List.perm_append_comm
    rw [hlist, List.append_assoc]
    exact hlast.append_left first
  exact ⟨t.reorder _ hperm, hperm, _, rfl⟩

theorem oneOutput_iff (hr : reg.Numbered) (hb : b.board.Sound)
    (r : Roster) (change : DeviceChange) :
    (∀ order order' : Table Nat RouteEntry, order.Perm b.entries → order'.Perm b.entries →
        (b.handleInOrder order r reg change).2.1.activeOutput =
          (b.handleInOrder order' r reg change).2.1.activeOutput) ↔
      b.OneOutput r reg change := by
  constructor
  · intro hsame p hp q hq d d' hd hd'
    obtain ⟨order, hperm, first, hfirst⟩ := exists_order_ending hp
    obtain ⟨order', hperm', first', hfirst'⟩ := exists_order_ending hq
    have hlast := hsame order order' hperm hperm'
    rw [activeOutput_handleInOrder hr hb, activeOutput_handleInOrder hr hb, hfirst,
      hfirst'] at hlast
    simpa [hd, hd'] using hlast
  · intro hone order order' h h'
    rw [activeOutput_handleInOrder hr hb, activeOutput_handleInOrder hr hb]
    have hperm := (h.trans h'.symm).filterMap (b.handsOut? r reg change)
    rcases List.eq_nil_or_concat (order.toList.filterMap (b.handsOut? r reg change)) with
      hnil | ⟨l, d, hd⟩
    · rw [hnil] at hperm ⊢
      rw [hperm.nil_eq]
    · rcases List.eq_nil_or_concat (order'.toList.filterMap (b.handsOut? r reg change)) with
        hnil' | ⟨l', d', hd'⟩
      · rw [hnil'] at hperm ⊢
        rw [hperm.eq_nil]
      · have hmem : d ∈ order.toList.filterMap (b.handsOut? r reg change) := by simp [hd]
        have hmem' : d' ∈ order'.toList.filterMap (b.handsOut? r reg change) := by simp [hd']
        obtain ⟨p, hp, hhands⟩ := List.mem_filterMap.mp hmem
        obtain ⟨q, hq, hhands'⟩ := List.mem_filterMap.mp hmem'
        rw [hd, hd']
        simpa using hone p (h.mem_iff.mp hp) q (h'.mem_iff.mp hq) d d' hhands hhands'

end Switchboard
end Patchbay
