import Patchbay.Proofs.Device.Connections
import Patchbay.Proofs.Inboxes

/-!
# The changes as a log

Whoever subscribes to a roster gets each later change once and in order, whenever it is read. Who
applies them to the devices that were connected at the time of the subscription has the devices
that are connected now, and no partition changes that a change does not name.
-/
namespace Patchbay

/-- The connected devices as one knows them who hears of a change. -/
def DeviceChange.replay (known : List Device) (c : DeviceChange) : List Device :=
  let others := known.filter (!·.sameEndpoint c.device)
  match c.kind with
  | .connected | .reconnected => others ++ [c.device]
  | .disconnected => others

/-- A roster, and what was read by its subscribers since one began to count. -/
structure Readership where
  roster : Roster
  heard : Nat → List DeviceChange := fun _ => []

inductive ReadershipStep where
  | devices (t : RosterStep)
  | subscribe
  /-- A subscriber reads all that waits. -/
  | read (box : Nat)
  /-- A subscriber goes. -/
  | close (box : Nat)

namespace Readership

/-- One step, and the change that it published. -/
def step (a : Readership) : ReadershipStep → Option DeviceChange × Readership
  | .devices t =>
    let (change, roster) := a.roster.step t
    (change, { a with roster := roster })
  | .subscribe => (none, { a with roster := a.roster.subscribe.2 })
  | .read box =>
    let (changes, boxes) := a.roster.subscribers.take box
    (none, {
      roster := { a.roster with subscribers := boxes }
      heard := fun i => if box = i then a.heard i ++ changes else a.heard i })
  | .close box =>
    (none, { a with
      roster := { a.roster with subscribers := a.roster.subscribers.close box } })

def run (a : Readership) (steps : List ReadershipStep) : Readership :=
  steps.foldl (fun a t => (a.step t).2) a

/-- The changes that a run publishes, in order. -/
def published (a : Readership) : List ReadershipStep → List DeviceChange
  | [] => []
  | t :: later => (a.step t).1.toList ++ (a.step t).2.published later

/-- What a subscriber has received, whether it was read or still waits. -/
def received (a : Readership) (box : Nat) : List DeviceChange :=
  a.heard box ++ (a.roster.subscribers.take box).1

end Readership

namespace Roster

/-- From `r` to `r'` the devices changed as `c` says, and `c` went to all subscribers. -/
structure Publishes (r r' : Roster) (c : DeviceChange) : Prop where
  number : c.generation = r.generation + 1
  generation : r'.generation = r.generation + 1
  subscribers : r'.subscribers = r.subscribers.sendAll c
  connected : r'.connected = c.replay r.connected
  unnamed : ∀ p, p ∉ c.partitions → r'.partition p = r.partition p
  named : ∀ p ∈ c.partitions, ∃ e ∈ r.partition p ++ r'.partition p, e.sameEndpoint c.device
  distinct : c.partitions.Nodup

variable {r r' : Roster} {c : DeviceChange} {d e : Device} {arrived : List Device}

/-- A change names the partitions that lost or gained its endpoint. -/
theorem Replaces.named (h : r.Replaces r' d arrived c.partitions) (hd : d.sameEndpoint c.device)
    (harrived : ∀ e ∈ arrived, e.sameEndpoint c.device) {p : Partition} (hp : p ∈ c.partitions) :
    ∃ e ∈ r.partition p ++ r'.partition p, e.sameEndpoint c.device := by
  rcases (h.touched p).mp hp with hlost | hgained
  · obtain ⟨e, he, hsame⟩ := hlost
    exact ⟨e, List.mem_append_left _ he, Device.sameEndpoint_trans hsame hd⟩
  · obtain ⟨e, he, hclass⟩ := hgained
    refine ⟨e, List.mem_append_right _ ?_, harrived e he⟩
    rw [h.partition]
    exact List.mem_append_right _ (List.mem_filter.mpr ⟨he, decide_eq_true hclass⟩)

theorem nodup_occupied (r : Roster) (d : Device) : (r.occupied d).Nodup :=
  List.Pairwise.filter _ (by decide)

theorem connect_publishes (r : Roster) (now : UInt64) (d : Device) :
    r.Publishes (r.connect now d).2 (r.connect now d).1 where
  number := rfl
  generation := rfl
  subscribers := rfl
  connected := by
    rw [(r.connect_replaces now d).connected]
    unfold DeviceChange.replay connect publish
    dsimp only
    cases (r.occupied (r.stamp now d)).isEmpty <;> rfl
  unnamed := fun _ hp => (r.connect_replaces now d).partition_of_untouched hp
  named := by
    intro p hp
    refine (r.connect_replaces now d).named (Device.sameEndpoint_refl _) (fun e he => ?_) hp
    rw [List.mem_singleton.mp he]
    exact Device.sameEndpoint_refl _
  distinct := List.Pairwise.filter _ (by decide)

theorem disconnect_publishes (h : r.connected.find? (·.sameEndpoint d) = some e) :
    (r.disconnect d).1 = some ⟨r.generation + 1, .disconnected, e, r.occupied d⟩ ∧
      r.Publishes (r.disconnect d).2 ⟨r.generation + 1, .disconnected, e, r.occupied d⟩ := by
  have hsame : e.sameEndpoint d := by simpa using List.find?_some h
  have hreplaces := disconnect_replaces h
  have hchange : r.disconnect d = (some ⟨r.generation + 1, .disconnected, e, r.occupied d⟩,
      ((r.without d).publish .disconnected e (r.occupied d)).2) := by
    rw [disconnect, h]
    rfl
  rw [hchange] at hreplaces ⊢
  refine ⟨rfl, ?_⟩
  exact {
    number := rfl
    generation := rfl
    subscribers := rfl
    connected := by
      have hothers : (fun f : Device => !f.sameEndpoint d) = fun f => !f.sameEndpoint e :=
        funext fun f =>
          congrArg _ (Device.sameEndpoint_congr (Device.sameEndpoint_symm hsame) f)
      rw [hreplaces.connected, List.append_nil, hothers]
      rfl
    unnamed := fun _ hp => hreplaces.partition_of_untouched hp
    named := fun _ hp => hreplaces.named (c := ⟨_, _, e, r.occupied d⟩)
      (Device.sameEndpoint_symm hsame) (fun _ hf => absurd hf List.not_mem_nil) hp
    distinct := r.nodup_occupied d }

/-- A disconnection of an endpoint that is not connected is no change, and every other step is. -/
theorem step_cases (r : Roster) (t : RosterStep) :
    (∃ d, t = .disconnect d ∧ (∀ e ∈ r.connected, ¬ e.sameEndpoint d) ∧ r.step t = (none, r)) ∨
      ((∀ d, t = .disconnect d → ∃ e ∈ r.connected, e.sameEndpoint d) ∧
        ∃ c, (r.step t).1 = some c ∧ r.Publishes (r.step t).2 c) := by
  cases t with
  | connect now d =>
      exact Or.inr ⟨(fun e h => by cases h), _, rfl, r.connect_publishes now d⟩
  | disconnect d =>
      cases hfind : r.connected.find? (·.sameEndpoint d) with
      | none =>
          refine Or.inl ⟨d, rfl, fun e he => ?_, ?_⟩
          · simpa using List.find?_eq_none.mp hfind e he
          · simp only [step, disconnect, hfind]
      | some e =>
          refine Or.inr ⟨fun d' h => ?_, _, disconnect_publishes hfind⟩
          cases h
          exact ⟨e, List.mem_of_find?_eq_some hfind, by simpa using List.find?_some hfind⟩

end Roster

namespace Readership

variable {a : Readership} {box : Nat}

/-- As long as a subscriber stays, it gets what a step publishes and keeps what it got. -/
theorem received_step (h : a.roster.subscribers.isOpen box) {t : ReadershipStep}
    (ht : t ≠ .close box) :
    (a.step t).2.roster.subscribers.isOpen box ∧
      (a.step t).2.received box = a.received box ++ (a.step t).1.toList := by
  cases t with
  | devices t =>
      unfold received step
      dsimp only
      rcases a.roster.step_cases t with hunknown | heffective
      · obtain ⟨-, -, -, hnone⟩ := hunknown
        rw [hnone]
        exact ⟨h, (List.append_nil _).symm⟩
      · obtain ⟨-, c, hc, hpublishes⟩ := heffective
        rw [hc, hpublishes.subscribers, Inboxes.isOpen_sendAll, Inboxes.take_sendAll h]
        exact ⟨h, (List.append_assoc _ _ _).symm⟩
  | subscribe =>
      unfold received step
      refine ⟨Inboxes.isOpen_join h, ?_⟩
      rw [Option.toList_none, List.append_nil]
      exact congrArg _ (Inboxes.take_join h)
  | read j =>
      unfold received step
      dsimp only
      rw [Inboxes.isOpen_take, Inboxes.heard_take, Option.toList_none, List.append_nil]
      exact ⟨h, rfl⟩
  | close j =>
      have hne : j ≠ box := fun hsame => ht (by rw [hsame])
      unfold received step
      dsimp only
      rw [Inboxes.isOpen_close hne, Inboxes.take_close hne, Option.toList_none, List.append_nil]
      exact ⟨h, rfl⟩

theorem received_run (h : a.roster.subscribers.isOpen box) {steps : List ReadershipStep}
    (hsteps : .close box ∉ steps) :
    (a.run steps).received box = a.received box ++ a.published steps := by
  induction steps generalizing a with
  | nil => exact (List.append_nil _).symm
  | cons t later ih =>
      rw [List.mem_cons, not_or] at hsteps
      obtain ⟨hopen, hreceived⟩ := received_step h (Ne.symm hsteps.1)
      calc (a.run (t :: later)).received box
          = ((a.step t).2.run later).received box := rfl
        _ = (a.step t).2.received box ++ (a.step t).2.published later := ih hopen hsteps.2
        _ = a.received box ++ a.published (t :: later) := by
            rw [hreceived, List.append_assoc, published]

/-- What a step publishes tells all that it does to the devices. -/
theorem published_step (a : Readership) (t : ReadershipStep) :
    (a.step t).1 = none ∧ (a.step t).2.roster.generation = a.roster.generation ∧
        (a.step t).2.roster.connected = a.roster.connected ∨
      ∃ c, (a.step t).1 = some c ∧ c.generation = a.roster.generation + 1 ∧
        (a.step t).2.roster.generation = a.roster.generation + 1 ∧
        (a.step t).2.roster.connected = c.replay a.roster.connected := by
  cases t with
  | devices t =>
      unfold step
      dsimp only
      rcases a.roster.step_cases t with hunknown | heffective
      · obtain ⟨-, -, -, hnone⟩ := hunknown
        rw [hnone]
        exact Or.inl ⟨rfl, rfl, rfl⟩
      · obtain ⟨-, c, hc, hpublishes⟩ := heffective
        exact Or.inr ⟨c, hc, hpublishes.number, hpublishes.generation, hpublishes.connected⟩
  | subscribe => exact Or.inl ⟨rfl, rfl, rfl⟩
  | read box => exact Or.inl ⟨rfl, rfl, rfl⟩
  | close box => exact Or.inl ⟨rfl, rfl, rfl⟩

/-- What a run publishes is numbered in order, and replayed it leads to where the run does. -/
theorem published_run (a : Readership) (steps : List ReadershipStep) :
    (a.published steps).map (·.generation) =
        List.range' (a.roster.generation + 1) (a.published steps).length ∧
      (a.run steps).roster.generation = a.roster.generation + (a.published steps).length ∧
      (a.published steps).foldl DeviceChange.replay a.roster.connected =
        (a.run steps).roster.connected := by
  induction steps generalizing a with
  | nil => exact ⟨rfl, rfl, rfl⟩
  | cons t later ih =>
      obtain ⟨hnumbers, hcount, hreplay⟩ := ih (a.step t).2
      have hrun : a.run (t :: later) = (a.step t).2.run later := rfl
      rw [hrun, hcount, ← hreplay, published]
      rcases a.published_step t with hnone | hsome
      · obtain ⟨hchange, hgeneration, hconnected⟩ := hnone
        rw [hgeneration] at hnumbers ⊢
        rw [hchange, hconnected]
        exact ⟨hnumbers, rfl, rfl⟩
      · obtain ⟨c, hchange, hnumber, hgeneration, hconnected⟩ := hsome
        rw [hgeneration] at hnumbers ⊢
        rw [hchange, hconnected, Option.toList_some, List.singleton_append, List.map_cons, hnumbers,
          hnumber, List.length_cons, List.range'_succ, Nat.add_right_comm]
        exact ⟨rfl, Nat.add_right_comm _ _ _, rfl⟩

end Readership

/-- The changes are a faithful log. Who subscribes at any time and stays receives exactly the
changes that are published from then on, numbered one after the other, and has by replaying them
on the devices connected then those connected now. At every time nothing but the disconnection of
an endpoint that is not connected fails to publish, and that leaves all as it was; and a change
names, once each, only partitions that had its endpoint before or have it after the step, among
them all that differ. -/
theorem changes_replayed (table : PrivacyTable) (render capture : DeviceType)
    (before after : List ReadershipStep) :
    let start : Readership := { roster := .vacant table render capture }
    let r := (start.run before).roster
    let box := r.subscribe.1
    let joined : Readership := { roster := r.subscribe.2 }
    let now := (joined.run after).roster
    (.close box ∉ after →
      let log := (joined.run after).received box
      log = joined.published after ∧
        log.map (·.generation) = List.range' (r.generation + 1) log.length ∧
        now.generation = r.generation + log.length ∧
        log.foldl DeviceChange.replay r.connected = now.connected) ∧
    ∀ t, ((now.step t).1 = none ↔
        ∃ d, t = .disconnect d ∧ ∀ e ∈ now.connected, ¬ e.sameEndpoint d) ∧
      ((now.step t).1 = none → (now.step t).2 = now) ∧
      ∀ c, (now.step t).1 = some c →
        let next := (now.step t).2
        (∀ p, next.partition p ≠ now.partition p → p ∈ c.partitions) ∧
          (∀ p ∈ c.partitions,
            ∃ e ∈ now.partition p ++ next.partition p, e.sameEndpoint c.device) ∧
          c.partitions.Nodup := by
  intro start r box joined now
  constructor
  · intro hopen log
    obtain ⟨hjoined, hempty⟩ := r.subscribers.take_join_self
    have hlog : log = joined.published after := by
      have hreceived : log = joined.received box ++ joined.published after :=
        Readership.received_run hjoined hopen
      have hnothing : joined.received box = [] := hempty
      rw [hreceived, hnothing, List.nil_append]
    obtain ⟨hnumbers, hcount, hreplay⟩ := joined.published_run after
    rw [← hlog] at hnumbers hcount hreplay
    exact ⟨hlog, hnumbers, hcount, hreplay⟩
  · intro t
    rcases now.step_cases t with hunknown | heffective
    · obtain ⟨d, ht, hnot, hnone⟩ := hunknown
      rw [hnone]
      exact ⟨iff_of_true rfl ⟨d, ht, hnot⟩, fun _ => rfl, fun c hc => by cases hc⟩
    · obtain ⟨hknown, c, hc, hpublishes⟩ := heffective
      rw [hc]
      refine ⟨iff_of_false (by simp) ?_, (fun hnone => by cases hnone), fun c' hc' => ?_⟩
      · intro hunknown
        obtain ⟨d, ht, hnot⟩ := hunknown
        obtain ⟨e, he, hsame⟩ := hknown d ht
        exact hnot e he hsame
      · cases hc'
        refine ⟨fun p hdiffers => ?_, hpublishes.named, hpublishes.distinct⟩
        exact Decidable.byContradiction fun hp => hdiffers (hpublishes.unnamed p hp)

theorem headset_turned_round_replayed :
    let headset : Device := { type := .wiredHeadset, role := .output, connectedAt := 2 }
    let speaker : Device := { type := .speaker, role := .output, connectedAt := 1 }
    let turned : Device := { headset with role := .input, connectedAt := 3 }
    let before : List ReadershipStep :=
      [.subscribe, .devices (.connect 1 speaker), .devices (.connect 1 headset)]
    let after : List ReadershipStep :=
      [.devices (.connect 1 turned), .read 1, .devices (.disconnect Device.none), .close 0,
        .devices (.disconnect speaker)]
    let start : Readership := { roster := .vacant .builtIn .speaker .mic }
    let r := (start.run before).roster
    let joined : Readership := { roster := r.subscribe.2 }
    let log := (joined.run after).received r.subscribe.1
    .close r.subscribe.1 ∉ after ∧ r.connected = [speaker, { headset with privacy := .isPrivate }] ∧
      log.map (·.kind) = [.reconnected, .disconnected] ∧
      log.map (·.generation) = List.range' (r.generation + 1) log.length ∧
      (joined.run after).roster.connected = [{ turned with privacy := .isPrivate }] ∧
      log.foldl DeviceChange.replay r.connected = (joined.run after).roster.connected := by
  intro headset speaker turned before after start r joined log
  have hopen : .close r.subscribe.1 ∉ after := by
    have hbox : r.subscribe.1 = 1 := by decide +kernel
    rw [hbox]
    simp [after]
  have hconnected : r.connected = [speaker, { headset with privacy := .isPrivate }] := by
    decide +kernel
  have hkinds : log.map (·.kind) = [.reconnected, .disconnected] := by decide +kernel
  have hnow : (joined.run after).roster.connected = [{ turned with privacy := .isPrivate }] := by
    decide +kernel
  clear_value before after
  obtain ⟨-, hnumbers, -, hreplay⟩ :=
    (changes_replayed .builtIn .speaker .mic before after).1 hopen
  exact ⟨hopen, hconnected, hkinds, hnumbers, hnow, hreplay⟩

end Patchbay
