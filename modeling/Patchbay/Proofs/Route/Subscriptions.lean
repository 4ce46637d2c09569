import Patchbay.Proofs.Route.Registrations

/-!
# One subscription

What the owner of one session finds in the inbox of one registration: the moves of the session,
each from where the last one ended, and at most one word of its end. As long as the notices go
to the inbox, the last move ends at the device of the entry. When they do not any more, nothing
is added to it.
-/
namespace Patchbay

/-- What is told of session `id` on its way from the device `start` to the device `d`, which takes
it to a different place each time. -/
inductive Journey (id : Nat) (start : Device) : List SessionNotice → Device → Prop
  | stay : Journey id start [] start
  | move {told : List SessionNotice} {d d' : Device} (journey : Journey id start told d)
      (moved : ¬ d.SamePlace d') : Journey id start (told ++ [.deviceChanged id d d']) d'

/-- A journey and then, as the last that is told, the end of the session. -/
def Journey.Ended (id : Nat) (start : Device) (told : List SessionNotice) : Prop :=
  ∃ moves d reason, Journey id start moves d ∧ told = moves ++ [.teardown id reason]

theorem Journey.teardown_not_mem {id : Nat} {start d : Device} {told : List SessionNotice}
    (h : Journey id start told d) (reason : String) : .teardown id reason ∉ told := by
  induction h with
  | stay => exact List.not_mem_nil
  | move journey moved ih =>
      intro hmem
      rcases List.mem_append.mp hmem with hmem | hmem
      · exact ih hmem
      · rw [List.mem_singleton] at hmem
        cases hmem

namespace Switchboard

variable {b b' : Switchboard} {r : Roster} {reg : Registry} {w w' : Sweep} {id id' box : Nat}
variable {start : Device} {heard : List SessionNotice} {gone gone' : Prop} {e : RouteEntry}

theorem Sweep.Visits.spares (hvisit : w.Visits id e w')
    (h : w.board.board.readers.get? id ≠ some box) : w.board.board.Spares w'.board.board box := by
  cases hvisit with
  | skip => exact .refl _ _
  | give => exact .refl _ _
  | move => exact NoticeBoard.notify_spares h _

theorem tearDown_spares (h : b.board.readers.get? id ≠ some box) (reason : String) :
    b.board.Spares (b.tearDown id reason).board box := by
  have hspares := NoticeBoard.notify_spares h (.teardown id reason)
  refine hspares.trans (NoticeBoard.remove_spares fun hreader => ?_)
  exact h ((hspares.readers id).mp hreader)

theorem handleEvent_spares {event : SessionEvent}
    (h : b.board.readers.get? event.sessionId ≠ some box) :
    b.board.Spares (b.handleEvent event).board box := by
  unfold Switchboard.handleEvent
  split
  · exact tearDown_spares h _
  · exact .refl _ _

theorem unregister_spares (h : b.board.readers.get? id ≠ some box) :
    b.board.Spares (b.unregister id).2.board box := by
  unfold Switchboard.unregister
  split
  · exact NoticeBoard.remove_spares h
  · exact .refl _ _

theorem register_spares {s : Session} (hmade : box < b.board.boxes.length)
    (h : b.board.readers.get? s.id ≠ some box) (r : Roster) (reg : Registry) :
    b.board.Spares (b.register r reg s).2.1.board box := by
  rcases b.register_cases r reg s with ⟨error, registry, hrefused, -⟩ | ⟨d, previous, -, -, hok⟩
  · rw [hrefused]
    exact .refl _ _
  · rw [hok]
    exact NoticeBoard.subscribe_spares hmade h

theorem handleChange_spares (h : b.board.Retired box) (hr : reg.Numbered)
    (r : Roster) (change : DeviceChange) :
    b.board.Spares (b.handleChange r reg change).2.1.board box :=
  handleChange_induction (P := fun b' _ => b.board.Spares b'.board box) r change hr
    (.refl _ _)
    (fun _ _ id _ _ hspares _ hvisit =>
      hspares.trans (hvisit.spares ((hspares.retired h).unserved id)))
    (fun _ _ id reason hspares _ =>
      hspares.trans (tearDown_spares ((hspares.retired h).unserved id) reason))
    (fun _ _ _ hspares => hspares)

theorem waiting_prefix_tearDown (b : Switchboard) (id box : Nat) (reason : String) :
    b.board.waiting box <+: (b.tearDown id reason).board.waiting box :=
  b.board.waiting_prefix_notify id box (.teardown id reason)

theorem waiting_prefix_handleEvent (b : Switchboard) (event : SessionEvent) (box : Nat) :
    b.board.waiting box <+: (b.handleEvent event).board.waiting box := by
  unfold Switchboard.handleEvent
  split
  · exact b.waiting_prefix_tearDown _ box _
  · exact List.prefix_refl _

theorem waiting_unregister (b : Switchboard) (id box : Nat) :
    (b.unregister id).2.board.waiting box = b.board.waiting box := by
  unfold Switchboard.unregister
  split <;> rfl

theorem waiting_prefix_register (b : Switchboard) (r : Roster) (reg : Registry) (s : Session)
    (box : Nat) : b.board.waiting box <+: (b.register r reg s).2.1.board.waiting box := by
  rcases b.register_cases r reg s with ⟨error, registry, hrefused, -⟩ | ⟨d, previous, -, -, hok⟩
  · rw [hrefused]
  · rw [hok]
    exact b.board.waiting_prefix_subscribe s.id box

theorem waiting_prefix_handleChange (hr : reg.Numbered)
    (r : Roster) (change : DeviceChange) (box : Nat) :
    b.board.waiting box <+: (b.handleChange r reg change).2.1.board.waiting box :=
  handleChange_induction (P := fun b' _ => b.board.waiting box <+: b'.board.waiting box) r change
    hr (List.prefix_refl _)
    (fun w _ id e _ hprefix _ hvisit => by
      cases hvisit with
      | skip => exact hprefix
      | give => exact hprefix
      | move => exact hprefix.trans (w.board.board.waiting_prefix_notify id box _))
    (fun b _ id reason hprefix _ => hprefix.trans (b.waiting_prefix_tearDown id box reason))
    (fun _ _ _ hprefix => hprefix)

/-- How it stands with an inbox that was made when session `id` was routed to `start`, of which
the owner has read `heard` so far. With `gone` the owner may have had the session forgotten. -/
inductive Stands (b : Switchboard) (id box : Nat) (start : Device) (heard : List SessionNotice)
    (gone : Prop) : Prop
  | routed (e : RouteEntry) (entry : b.entries.get? id = some e)
      (serves : b.board.Serves id box)
      (journey : Journey id start (heard ++ b.board.waiting box) e.decision.device)
  | tornDown (retired : b.board.Retired box)
      (ended : Journey.Ended id start (heard ++ b.board.waiting box))
  | left (retired : b.board.Retired box) (d : Device)
      (journey : Journey id start (heard ++ b.board.waiting box) d) (left : gone)

theorem Stands.mono (h : b.Stands id box start heard gone) (hgone : gone → gone') :
    b.Stands id box start heard gone' := by
  cases h with
  | routed e entry serves journey => exact .routed e entry serves journey
  | tornDown retired ended => exact .tornDown retired ended
  | left retired d journey left => exact .left retired d journey (hgone left)

theorem Stands.served_or_retired (h : b.Stands id box start heard gone) :
    b.board.Serves id box ∨ b.board.Retired box := by
  cases h with
  | routed e entry serves => exact Or.inl serves
  | tornDown retired => exact Or.inr retired
  | left retired => exact Or.inr retired

theorem Stands.retired (h : b.Stands id box start heard gone)
    (hended : Journey.Ended id start (heard ++ b.board.waiting box)) : b.board.Retired box := by
  obtain ⟨moves, d, reason, -, htold⟩ := hended
  have hmem : .teardown id reason ∈ heard ++ b.board.waiting box := by
    rw [htold]
    exact List.mem_append_right _ (List.mem_singleton_self _)
  cases h with
  | routed e entry serves journey => exact absurd hmem (journey.teardown_not_mem reason)
  | tornDown retired => exact retired
  | left retired d journey => exact retired

/-- An owner who did not leave was told of the end if there is no entry any more. -/
theorem Stands.ended (h : b.Stands id box start heard gone) (hstays : ¬ gone)
    (hentry : b.entries.get? id = none) :
    Journey.Ended id start (heard ++ b.board.waiting box) := by
  cases h with
  | routed e entry =>
      rw [hentry] at entry
      cases entry
  | tornDown retired ended => exact ended
  | left retired d journey left => exact absurd left hstays

/-- What an owner who did not leave was told last, short of the end, is where the session is. -/
theorem Stands.wellFormed (h : b.Stands id box start heard gone) :
    (∃ d, Journey id start (heard ++ b.board.waiting box) d ∧
      (gone ∨ (b.decision? id).map (·.device) = some d)) ∨
      Journey.Ended id start (heard ++ b.board.waiting box) := by
  cases h with
  | routed e entry serves journey =>
      refine Or.inl ⟨_, journey, Or.inr ?_⟩
      rw [decision?, entry]
      rfl
  | tornDown retired ended => exact Or.inr ended
  | left retired d journey left => exact Or.inl ⟨d, journey, Or.inl left⟩

/-- What has been told is all the same, whether it was read or still waits. -/
theorem Stands.congr (h : b.Stands id box start heard gone) {heard' : List SessionNotice}
    (htold : heard' ++ b'.board.waiting box = heard ++ b.board.waiting box)
    (hserves : b.board.Serves id box → b'.board.Serves id box)
    (hretired : b.board.Retired box → b'.board.Retired box)
    (hentry : b.board.Serves id box → b'.entries.get? id = b.entries.get? id) :
    b'.Stands id box start heard' gone := by
  cases h with
  | routed e entry serves journey =>
      rw [← htold] at journey
      exact .routed e ((hentry serves).trans entry) (hserves serves) journey
  | tornDown retired ended =>
      rw [← htold] at ended
      exact .tornDown (hretired retired) ended
  | left retired d journey left =>
      rw [← htold] at journey
      exact .left (hretired retired) d journey left

theorem Stands.spare (h : b.Stands id box start heard gone)
    (hspares : b.board.Spares b'.board box)
    (hentry : b.board.Serves id box → b'.entries.get? id = b.entries.get? id) :
    b'.Stands id box start heard gone :=
  h.congr (by rw [hspares.waiting]) hspares.serves hspares.retired hentry

/-- Either something is about the session and its inbox is served, or it has no part in it. -/
theorem Stands.own_or_other (h : b.Stands id box start heard gone) (hboard : b.board.Sound)
    (id' : Nat) :
    id' = id ∧ (∃ e, b.entries.get? id = some e ∧ b.board.Serves id box ∧
        Journey id start (heard ++ b.board.waiting box) e.decision.device) ∨
      b.board.readers.get? id' ≠ some box ∧ (b.board.Serves id box → ¬ id' == id) := by
  cases h with
  | routed e entry serves journey =>
      by_cases hsame : id' = id
      · exact Or.inl ⟨hsame, e, entry, serves, journey⟩
      · exact Or.inr ⟨hboard.unserved serves hsame, fun _ hc => hsame (eq_of_beq hc)⟩
  | tornDown retired =>
      exact Or.inr
        ⟨retired.unserved id', fun hserves => absurd hserves.reader (retired.unserved id)⟩
  | left retired =>
      exact Or.inr
        ⟨retired.unserved id', fun hserves => absurd hserves.reader (retired.unserved id)⟩

theorem Stands.visit (h : w.board.Stands id box start heard gone) (hboard : w.board.board.Sound)
    (hget : w.board.entries.get? id' = some e) (hvisit : w.Visits id' e w') :
    w'.board.Stands id box start heard gone := by
  rcases h.own_or_other hboard id' with ⟨rfl, e', hentry, hserves, hjourney⟩ | ⟨hother, hne⟩
  · cases hvisit with
    | skip => exact h
    | give => exact h
    | move d previous generation moved =>
        rw [hget] at hentry
        cases hentry
        obtain ⟨hserves', hwaiting⟩ := hserves.notify (.deviceChanged id' e.decision.device d)
        refine .routed { e with decision := ⟨d, generation⟩ } ?_ hserves' ?_
        · dsimp only
          rw [Table.get?_put, if_pos (beq_self_eq_true id')]
        · dsimp only
          rw [hwaiting, ← List.append_assoc]
          exact hjourney.move moved
  · refine h.spare (hvisit.spares hother) fun hserves => ?_
    cases hvisit with
    | skip => rfl
    | give => rfl
    | move =>
        dsimp only
        rw [Table.get?_put, if_neg (hne hserves)]

theorem Stands.tearDown (h : b.Stands id box start heard gone) (hboard : b.board.Sound)
    (id' : Nat) (reason : String) : (b.tearDown id' reason).Stands id box start heard gone := by
  rcases h.own_or_other hboard id' with ⟨rfl, e, -, hserves, hjourney⟩ | ⟨hother, hne⟩
  · obtain ⟨hserves', hwaiting⟩ := hserves.notify (.teardown id' reason)
    have hretired := (hboard.notify id' (.teardown id' reason)).retired_remove hserves'
    refine .tornDown hretired ⟨_, _, reason, hjourney, ?_⟩
    show heard ++ ((b.board.notify id' _).2.remove id').2.waiting box = _
    rw [NoticeBoard.waiting_remove, hwaiting, List.append_assoc]
  · refine h.spare (tearDown_spares hother reason) fun hserves => ?_
    rw [entries_tearDown, Table.get?_erase, if_neg (hne hserves)]

theorem Stands.handleChange (h : b.Stands id box start heard gone) (hb : b.Orderly reg)
    (hr : reg.Numbered) (r : Roster) (change : DeviceChange) :
    (b.handleChange r reg change).2.1.Stands id box start heard gone := by
  have hboth := handleChange_induction
    (P := fun b reg => b.Orderly reg ∧ b.Stands id box start heard gone) r change hr
    ⟨hb, h⟩
    (fun _ _ _ _ hr h hget hvisit =>
      ⟨h.1.visit hr hget hvisit, h.2.visit h.1.board hget hvisit⟩)
    (fun _ _ id reason h _ => ⟨h.1.tearDown id reason, h.2.tearDown h.1.board id reason⟩)
    (fun _ _ _ h => ⟨{ h.1 with }, h.2.spare (.refl _ _) fun _ => rfl⟩)
  exact hboth.2

theorem Stands.handleEvent (h : b.Stands id box start heard gone) (hboard : b.board.Sound)
    (event : SessionEvent) : (b.handleEvent event).Stands id box start heard gone := by
  unfold Switchboard.handleEvent
  split
  · exact h.tearDown hboard _ _
  · exact h

theorem get?_handleEvent (b : Switchboard) (event : SessionEvent) :
    (b.handleEvent event).entries.get? event.sessionId = none := by
  unfold Switchboard.handleEvent
  split
  · rw [entries_tearDown, Table.get?_erase, if_pos (beq_self_eq_true _)]
  · rename_i hhas
    rw [Table.has_eq_isSome] at hhas
    exact Option.not_isSome_iff_eq_none.mp hhas

/-- Who is unregistered hears nothing more, not even of the end. -/
theorem Stands.unregister (h : b.Stands id box start heard gone) (hboard : b.board.Sound)
    (id' : Nat) : (b.unregister id').2.Stands id box start heard (gone ∨ id' = id) := by
  rcases h.own_or_other hboard id' with ⟨rfl, e, hentry, hserves, hjourney⟩ | ⟨hother, hne⟩
  · have hhas : b.entries.has id' := (Table.has_iff _ _).mpr ⟨_, hentry⟩
    rw [Switchboard.unregister, if_pos hhas]
    exact .left (hboard.retired_remove hserves) _ hjourney (Or.inr rfl)
  · refine (h.spare (unregister_spares hother) fun hserves => ?_).mono Or.inl
    unfold Switchboard.unregister
    split
    · dsimp only
      rw [Table.get?_erase, if_neg (hne hserves)]
    · rfl

theorem Stands.retired_unregister (h : b.Stands id box start heard gone) (hboard : b.board.Sound) :
    (b.unregister id).2.board.Retired box := by
  rcases h.own_or_other hboard id with ⟨-, e, hentry, hserves, -⟩ | ⟨hother, hne⟩
  · have hhas : b.entries.has id := (Table.has_iff _ _).mpr ⟨_, hentry⟩
    rw [Switchboard.unregister, if_pos hhas]
    exact hboard.retired_remove hserves
  · rcases h.served_or_retired with hserves | hretired
    · exact absurd (beq_self_eq_true id) (hne hserves)
    · exact (unregister_spares hother).retired hretired

/-- A registration leads to an inbox of its own, and the session of a served inbox is registered
already. -/
theorem Stands.register (h : b.Stands id box start heard gone) (hboard : b.board.Sound)
    (r : Roster) (reg : Registry) (s : Session) :
    (b.register r reg s).2.1.Stands id box start heard gone := by
  have hmade : box < b.board.boxes.length := by
    rcases h.served_or_retired with hserves | hretired
    · exact hboard.made id box hserves.reader
    · exact hretired.made
  rcases h.own_or_other hboard s.id with ⟨hsame, e, hentry, -, -⟩ | ⟨hother, hne⟩
  · have hhas : b.entries.has s.id := hsame ▸ (Table.has_iff _ _).mpr ⟨_, hentry⟩
    rw [Switchboard.register, if_pos hhas]
    exact h
  · refine h.spare (register_spares hmade hother r reg) fun hserves => ?_
    rcases b.register_cases r reg s with ⟨error, registry, hrefused, -⟩ | ⟨d, previous, -, -, hok⟩
    · rw [hrefused]
    · rw [hok]
      dsimp only
      rw [Table.get?_put, if_neg (hne hserves)]

/-- An inbox begins empty, with the session at the device of the decision. -/
theorem stands_register {s : Session} {decision : RouteDecision}
    (h : (b.register r reg s).1 = .ok (decision, box)) :
    (b.register r reg s).2.1.Stands s.id box decision.device [] False := by
  rcases b.register_cases r reg s with ⟨error, registry, hrefused, -⟩ | ⟨d, previous, -, -, hok⟩
  · rw [hrefused] at h
    cases h
  · rw [hok] at h ⊢
    cases h
    obtain ⟨hserves, hwaiting⟩ := b.board.serves_subscribe s.id
    refine .routed ⟨s.intent, s.config.uid, ⟨d, r.generation⟩⟩ ?_ hserves ?_
    · dsimp only
      rw [Table.get?_put, if_pos (beq_self_eq_true s.id)]
    · dsimp only
      rw [List.nil_append, hwaiting]
      exact .stay

end Switchboard
end Patchbay
