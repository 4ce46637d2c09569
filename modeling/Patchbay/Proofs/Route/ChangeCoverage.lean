import Patchbay.Proofs.Device.RosterRuns
import Patchbay.Proofs.Route.Chains

/-!
# Which changes concern a route

A change names the partitions that it altered, and only streams of their roles are routed anew.
Most rules choose from a partition; the last resort chooses from all connected devices of its
type. A change says all there is to say to the streams of a chain exactly if the chain does
without the last resort or the privacy table puts its type in some partition of the role. Times
and the order of connection do not matter here.
-/
namespace Patchbay
open RouteRule

/-- The two devices are one place to a stream: the same endpoint in the same role. -/
def Device.SamePlace (d e : Device) : Prop :=
  d.sameEndpoint e ∧ d.role = e.role

/-- Devices of type `t` are in some partition of this role. -/
def PrivacyTable.Seats (table : PrivacyTable) (t : DeviceType) (role : DeviceRole) : Prop :=
  ∃ p : Partition, p.role = role ∧ table.any (·.admits t p)

/-- The type of device that is the last resort of a stream. -/
def Roster.lastResort (r : Roster) : StreamIntent → DeviceType
  | .render _ => r.defaultRender
  | .capture _ => r.defaultCapture

/-- The partition of the private devices for streams of a category. -/
def RouteCategory.privatePart? : RouteCategory → Option Partition
  | .mediaRender => some (.mediaRender .isPrivate)
  | .callRender => some (.commRender .isPrivate)
  | .recordCapture => some (.mediaCapture .isPrivate)
  | .callCapture => some (.commCapture .isPrivate)
  | .ringRender | .toneRender => none

/-- The partition of the public devices for a stream. -/
def StreamIntent.publicPart : StreamIntent → Partition
  | .render u => if u.isRingtone then .commRender .isPublic else .mediaRender .isPublic
  | .capture _ => .mediaCapture .isPublic

/-- On every run from `start`, a step that sends a stream elsewhere publishes a change for the
role of the stream. -/
def RouteChains.Announced (cs : RouteChains) (start : Roster) (i : StreamIntent) : Prop :=
  ∀ (steps : List RosterStep) (t : RosterStep) (uid : Int32),
    let r := start.run steps
    ¬ (cs.route (r.step t).2 i uid).SamePlace (cs.route r i uid) →
      ∃ c, (r.step t).1 = some c ∧ c.touchesRole i.role

variable {r r' : Roster} {d e : Device} {arrived : List Device} {touched : List Partition}
variable {p : Partition} {i : StreamIntent} {uid : Int32} {cs : RouteChains}
variable {names : ChainNames} {table : PrivacyTable}

theorem Device.samePlace_refl (d : Device) : d.SamePlace d :=
  ⟨d.sameEndpoint_refl, rfl⟩

theorem Device.SamePlace.symm (h : d.SamePlace e) : e.SamePlace d :=
  ⟨sameEndpoint_symm h.1, h.2.symm⟩

theorem Device.SamePlace.trans {f : Device} (h : d.SamePlace e) (h' : e.SamePlace f) :
    d.SamePlace f :=
  ⟨sameEndpoint_trans h.1 h'.1, h.2.trans h'.2⟩

@[simp]
theorem StreamIntent.role_render (u : StreamUsage) : (render u).role = .output := by
  cases u <;> rfl

@[simp]
theorem StreamIntent.role_capture (s : SourceType) : (capture s).role = .input := by
  cases s <;> rfl

namespace Roster.Replaces

/-- Connected devices that all belong to an untouched partition stay as they were. -/
theorem filter_connected_of_untouched (h : r.Replaces r' d arrived touched) (hr : r.Consistent)
    (hp : p ∉ touched) {keep : Device → Bool} (hkeep : ∀ e, keep e → p ∈ r.classify e) :
    r'.connected.filter keep = r.connected.filter keep := by
  rw [h.touched] at hp
  have hkept : (r.connected.filter (!·.sameEndpoint d)).filter keep =
      r.connected.filter keep := by
    rw [List.filter_filter]
    refine List.filter_congr fun e he => ?_
    by_cases hk : keep e
    · have hmem : e ∈ r.partition p := by
        rw [hr p]
        exact List.mem_filter.mpr ⟨he, by simpa using hkeep e hk⟩
      have hne : ¬ e.sameEndpoint d := fun hc => hp (Or.inl ⟨e, hmem, hc⟩)
      simp [hk, hne]
    · simp [hk]
  have hnone : arrived.filter keep = [] :=
    List.filter_eq_nil_iff.mpr fun e he hk => hp (Or.inr ⟨e, he, hkeep e hk⟩)
  rw [h.connected, List.filter_append, hkept, hnone, List.append_nil]

theorem lastResort_eq (h : r.Replaces r' d arrived touched) (i : StreamIntent) :
    r'.lastResort i = r.lastResort i := by
  cases i with
  | render u => exact h.defaultRender
  | capture s => exact h.defaultCapture

end Roster.Replaces

theorem Roster.lastResort_run (r : Roster) (steps : List RosterStep) (i : StreamIntent) :
    (r.run steps).lastResort i = r.lastResort i := by
  obtain ⟨-, hrender, hcapture⟩ := r.settings_run steps
  cases i with
  | render u => exact hrender
  | capture s => exact hcapture

/-- The last resort chooses among the connected devices of its type and role. -/
theorem candidates_fallback (r : Roster) (i : StreamIntent) (uid : Int32) :
    fallback.candidates r i uid =
      r.connected.filter fun d => d.type = r.lastResort i && d.role = i.role := by
  cases i with
  | render u =>
      rw [StreamIntent.role_render]
      rfl
  | capture s =>
      rw [StreamIntent.role_capture]
      rfl

theorem isNone_choose_fallback (h : r.lastResort i = .none) :
    (fallback.choose r i uid).isNone := by
  unfold RouteRule.choose
  rcases latestDevice_eq_none_or_mem (fallback.candidates r i uid) with hnone | hmem
  · rw [hnone]
    rfl
  · generalize latestDevice (fallback.candidates r i uid) = d at hmem ⊢
    rw [candidates_fallback, List.mem_filter, Bool.and_eq_true, h] at hmem
    exact hmem.2.1

theorem mem_classify_of_seats (h : table.any (·.admits d.type p)) (hrole : p.role = d.role) :
    p ∈ table.classify d :=
  PrivacyTable.mem_classify.mpr (Or.inr ⟨hrole.symm, h⟩)

theorem candidates_privacyPriority (r : Roster) (i : StreamIntent) (uid : Int32) :
    privacyPriority.candidates r i uid = i.category.privatePart?.elim [] r.partition := by
  simp only [privacyPriority]
  cases i.category <;> rfl

theorem role_of_privatePart? {c : RouteCategory} (h : c.privatePart? = some p) :
    p.role = c.role := by
  cases c <;> cases h <;> rfl

theorem candidates_publicPriority (r : Roster) (i : StreamIntent) (uid : Int32) :
    publicPriority.candidates r i uid = r.partition i.publicPart := by
  cases i with
  | render u =>
      simp only [publicPriority, StreamIntent.publicPart]
      split <;> rfl
  | capture s => rfl

theorem role_publicPart (i : StreamIntent) : i.publicPart.role = i.role := by
  cases i with
  | render u =>
      rw [StreamIntent.role_render, StreamIntent.publicPart]
      split <;> rfl
  | capture s => exact (StreamIntent.role_capture s).symm

/-- For one kind of stream the other rules read a fixed partition of its role, or nothing. -/
theorem candidates_eq_partition {rule : RouteRule}
    (hrule : rule = privacyPriority ∨ rule = publicPriority) (i : StreamIntent) :
    (∃ p : Partition, p.role = i.role ∧ ∀ r uid, rule.candidates r i uid = r.partition p) ∨
      ∀ r uid, rule.candidates r i uid = [] := by
  rcases hrule with rfl | rfl
  · cases hpart : i.category.privatePart? with
    | none =>
        refine Or.inr fun r uid => ?_
        rw [candidates_privacyPriority, hpart]
        rfl
    | some p =>
        refine Or.inl ⟨p, role_of_privatePart? hpart, fun r uid => ?_⟩
        rw [candidates_privacyPriority, hpart]
        rfl
  · exact Or.inl ⟨i.publicPart, role_publicPart i, fun r uid => candidates_publicPriority r i uid⟩

theorem candidates_of_untouched (h : r.Replaces r' d arrived touched)
    (hrole : ∀ p ∈ touched, p.role ≠ i.role) {rule : RouteRule}
    (hrule : rule = privacyPriority ∨ rule = publicPriority) :
    rule.candidates r' i uid = rule.candidates r i uid := by
  rcases candidates_eq_partition hrule i with ⟨p, hp, hpart⟩ | hnone
  · rw [hpart, hpart, h.partition_of_untouched fun hmem => hrole p hmem hp]
  · rw [hnone, hnone]

theorem choose_fallback_of_untouched (hr : r.Consistent) (h : r.Replaces r' d arrived touched)
    (hrole : ∀ p ∈ touched, p.role ≠ i.role) (hseats : r.table.Seats (r.lastResort i) i.role) :
    fallback.choose r' i uid = fallback.choose r i uid := by
  obtain ⟨p, hp, hadmits⟩ := hseats
  unfold RouteRule.choose
  rw [candidates_fallback, candidates_fallback, h.lastResort_eq,
    h.filter_connected_of_untouched hr fun hmem => hrole p hmem hp]
  intro e he
  simp only [Bool.and_eq_true, decide_eq_true_eq] at he
  exact mem_classify_of_seats (by rw [he.1]; exact hadmits) (hp.trans he.2.symm)

/-- A step that sends a stream elsewhere publishes a change for the role of the stream, if the
last resort of the stream has a partition of this role. -/
theorem Roster.Consistent.touches_of_moved (hr : r.Consistent)
    (hchain : ∀ rule ∈ cs.chain i.category, rule ∈ builtIn)
    (hseats : fallback ∈ cs.chain i.category → r.lastResort i ≠ .none →
      r.table.Seats (r.lastResort i) i.role)
    (t : RosterStep)
    (hmoved : ¬ (cs.route (r.step t).2 i uid).SamePlace (cs.route r i uid)) :
    ∃ c, (r.step t).1 = some c ∧ c.touchesRole i.role := by
  rcases r.step_eq_or_replaces t with hsame | ⟨c, d, arrived, hc, hreplaces⟩
  · rw [hsame] at hmoved
    exact absurd (Device.samePlace_refl _) hmoved
  refine ⟨c, hc, ?_⟩
  refine Decidable.byContradiction fun hno => hmoved ?_
  have hrole : ∀ p ∈ c.partitions, p.role ≠ i.role := by
    intro p hp hc
    exact hno (List.any_eq_true.mpr ⟨p, hp, by simpa using hc⟩)
  have hroute : cs.route (r.step t).2 i uid = cs.route r i uid := by
    refine RouteChains.firstChoice_congr fun rule hrule => ?_
    rcases RouteRule.mem_builtIn.mp (hchain rule hrule) with hpart | hpart | rfl
    · exact Or.inl (congrArg latestDevice (candidates_of_untouched hreplaces hrole (Or.inl hpart)))
    · exact Or.inl (congrArg latestDevice (candidates_of_untouched hreplaces hrole (Or.inr hpart)))
    · by_cases hnone : r.lastResort i = .none
      · refine Or.inr ⟨isNone_choose_fallback ?_, isNone_choose_fallback hnone⟩
        rw [hreplaces.lastResort_eq, hnone]
      · exact Or.inl (choose_fallback_of_untouched hr hreplaces hrole (hseats hrule hnone))
  rw [hroute]
  exact Device.samePlace_refl _

variable {render capture : DeviceType}

/-- A device of an unseated last resort is connected without touching a partition. -/
theorem connect_unseated (hr : r = Roster.vacant table render capture)
    (hd : d = { type := r.lastResort i, role := i.role, connectedAt := 1 })
    (hseats : ¬ table.Seats (r.lastResort i) i.role) :
    (r.connect 1 d).1.partitions = [] ∧ (r.connect 1 d).2.connected = [d] ∧
      ∀ p, (r.connect 1 d).2.partition p = [] := by
  have hlocal : PrivacyTable.remotePart d = [] := by
    subst hd
    rfl
  have hclass : r.classify d = [] := by
    refine List.eq_nil_iff_forall_not_mem.mpr fun p hp => ?_
    rcases PrivacyTable.mem_classify.mp hp with hremote | ⟨hrole, hadmits⟩
    · rw [hlocal] at hremote
      cases hremote
    · subst hr hd
      exact hseats ⟨p, hrole.symm, hadmits⟩
  have hstamp : r.stamp 1 d = d := by
    have hone : ¬ (1 : UInt64) = 0 := by decide
    have hat : ¬ d.connectedAt = 0 := by
      rw [hd]
      exact hone
    unfold Roster.stamp
    simp only [if_neg hat, hclass, List.findSome?_nil]
  have hreplaces := r.connect_replaces 1 d
  rw [hstamp] at hreplaces
  have hempty : ∀ p, r.partition p = [] := by
    subst hr
    exact fun p => rfl
  refine ⟨List.eq_nil_iff_forall_not_mem.mpr fun p hp => ?_, ?_, fun p => ?_⟩
  · rw [hreplaces.touched, hempty] at hp
    simp [hclass] at hp
  · rw [hreplaces.connected]
    subst hr
    rfl
  · simp [hreplaces.partition, hempty, hclass]

/-- While no partition has members only the last resort has an opinion. -/
theorem choose_of_empty_partitions (hempty : ∀ p, r.partition p = []) {rule : RouteRule}
    (hrule : rule ∈ builtIn) (i : StreamIntent) (uid : Int32) :
    (rule.choose r i uid).isNone ∨ rule = fallback := by
  have hpart : ∀ rule, rule = privacyPriority ∨ rule = publicPriority →
      (rule.choose r i uid).isNone := by
    intro rule hrule
    have hnil : rule.candidates r i uid = [] := by
      rcases candidates_eq_partition hrule i with ⟨p, -, hp⟩ | hnone
      · rw [hp, hempty]
      · exact hnone r uid
    unfold RouteRule.choose
    rw [hnil]
    rfl
  rcases RouteRule.mem_builtIn.mp hrule with h | h | h
  · exact Or.inl (hpart rule (Or.inl h))
  · exact Or.inl (hpart rule (Or.inr h))
  · exact Or.inr h

theorem route_vacant (hchain : ∀ rule ∈ cs.chain i.category, rule ∈ builtIn) :
    cs.route (Roster.vacant table render capture) i uid = Device.none := by
  have hempty : ∀ p, (Roster.vacant table render capture).partition p = [] := fun _ => rfl
  refine RouteChains.firstChoice_eq_none fun rule hrule => ?_
  rcases choose_of_empty_partitions hempty (hchain rule hrule) i uid with hnone | rfl
  · exact hnone
  · unfold RouteRule.choose
    rw [candidates_fallback]
    rfl

/-- A connected last resort is chosen if there is nothing else. -/
theorem route_of_only_fallback (hchain : ∀ rule ∈ cs.chain i.category, rule ∈ builtIn)
    (hmem : fallback ∈ cs.chain i.category) (hempty : ∀ p, r.partition p = [])
    (hconnected : r.connected = [d]) (htype : d.type = r.lastResort i) (hrole : d.role = i.role)
    (hreal : ¬ d.isNone) : cs.route r i uid = d := by
  have hchoose : fallback.choose r i uid = d := by
    unfold RouteRule.choose
    rw [candidates_fallback, hconnected, ← htype, ← hrole]
    simp [latestDevice]
  refine RouteChains.firstChoice_eq_of_agree hreal (fun rule hrule => ?_) ⟨fallback, hmem, hchoose⟩
  refine (choose_of_empty_partitions hempty (hchain rule hrule) i uid).imp id fun hlast => ?_
  rw [hlast, hchoose]

/-- The connection of a last resort that no partition takes is a move without an announcement. -/
theorem RouteChains.Announced.seats (hchain : ∀ rule ∈ cs.chain i.category, rule ∈ builtIn)
    (hr : r = Roster.vacant table render capture) (h : cs.Announced r i)
    (hmem : fallback ∈ cs.chain i.category) (hreal : r.lastResort i ≠ .none) :
    table.Seats (r.lastResort i) i.role := by
  refine Classical.byContradiction fun hseats => ?_
  generalize hd : ({ type := r.lastResort i, role := i.role, connectedAt := 1 } : Device) = d
  obtain ⟨huntouched, hconnected, hempty⟩ := connect_unseated hr hd.symm hseats
  have hdreal : ¬ d.isNone := by
    subst hd
    simpa [Device.isNone] using hreal
  have hlast := (r.connect_replaces 1 d).lastResort_eq i
  have hafter : cs.route (r.connect 1 d).2 i 0 = d := by
    refine route_of_only_fallback hchain hmem hempty hconnected ?_ ?_ hdreal
    · rw [hlast, ← hd]
    · rw [← hd]
  have hbefore : cs.route r i 0 = Device.none := by
    rw [hr]
    exact route_vacant hchain
  have hmoved : ¬ (cs.route (r.connect 1 d).2 i 0).SamePlace (cs.route r i 0) := by
    rw [hafter, hbefore]
    exact fun hc => hdreal (decide_eq_true (Device.sameEndpoint_iff.mp hc.1).1)
  obtain ⟨c, hc, htouches⟩ := h [] (.connect 1 d) 0 hmoved
  have hchange : (r.connect 1 d).1 = c := Option.some.inj hc
  rw [DeviceChange.touchesRole, ← hchange, huntouched] at htouches
  cases htouches

/-- Changes tell a stream of every move exactly if its chain does without the last resort, or
the last resort is no device at all, or the privacy table knows its type in the role. -/
theorem announced_iff_seated (h : RouteChains.ofNames builtIn names = .ok cs)
    (table : PrivacyTable) (render capture : DeviceType) (i : StreamIntent) :
    cs.Announced (Roster.vacant table render capture) i ↔
      ("default" ∈ names.get i.category →
        (Roster.vacant table render capture).lastResort i ≠ .none →
        table.Seats ((Roster.vacant table render capture).lastResort i) i.role) := by
  have hchain : ∀ rule ∈ cs.chain i.category, rule ∈ builtIn :=
    fun rule hrule => RouteChains.mem_known_of_mem_chain h hrule
  rw [← RouteChains.fallback_mem_chain_iff h]
  constructor
  · exact fun hannounced => hannounced.seats hchain rfl
  · intro hseats steps t uid
    have hr := (Roster.consistent_vacant table render capture).run steps
    have htable := ((Roster.vacant table render capture).settings_run steps).1
    refine hr.touches_of_moved hchain ?_ t
    rw [Roster.lastResort_run, htable]
    exact hseats

theorem music_announced_by_builtIn_table :
    ∃ cs, RouteChains.ofNames builtIn {} = .ok cs ∧
      cs.Announced (Roster.vacant .builtIn .speaker .mic) (.render .music) := by
  have hnames : RouteChains.ofNames builtIn {} = .ok _ := rfl
  refine ⟨_, hnames, (announced_iff_seated hnames _ _ _ _).mpr fun _ _ => ?_⟩
  exact ⟨.mediaRender .isPublic, rfl, rfl⟩

/-- The first loudspeaker of a table that knows earpieces only is where music goes, and its
change is for streams of no role. -/
theorem unseated_speaker_unannounced :
    ∃ cs, RouteChains.ofNames builtIn {} = .ok cs ∧
      let r := Roster.vacant [⟨.earpiece, .isPrivate, [.output], [.voice]⟩] .speaker .mic
      let speaker : Device := { type := .speaker, role := .output, connectedAt := 1 }
      cs.route r (.render .music) 0 = Device.none ∧
        cs.route (r.connect 1 speaker).2 (.render .music) 0 = speaker ∧
        ¬ (r.connect 1 speaker).1.touchesRole (StreamIntent.render .music).role := by
  refine ⟨_, rfl, ?_, ?_, ?_⟩
  · rfl
  · rfl
  · decide

end Patchbay
