import Patchbay.Proofs.Route.Privacy

/-!
# The device that a stream gets

Each rule of a chain chooses among devices that hang on the stream: the members of a partition, or
the connected devices of the last resort. A stream gets a device of the first rule that has any,
the one that was connected last; of two with one time it is the one that the run connected last.
A last resort of the type that stands for no device is none.
-/
namespace Patchbay
open RouteRule

/-- The devices among which the rule of a name chooses for a stream. -/
def Roster.choices (r : Roster) (i : StreamIntent) (name : String) : List Device :=
  if name = "privacy_priority" then i.category.privatePart?.elim [] r.partition
  else if name = "public_priority" then r.partition i.publicPart
  else if name = "default" then
    r.connected.filter fun d => d.type = r.lastResort i && d.role = i.role && !d.isNone
  else []

/-- Of the devices `d` was connected last. The list is in the order of connection, which decides
between devices of one time. -/
def IsLatest (ds : List Device) (d : Device) : Prop :=
  ∃ before after, ds = before ++ d :: after ∧ (∀ e ∈ before, e.connectedAt ≤ d.connectedAt) ∧
    ∀ e ∈ after, e.connectedAt < d.connectedAt

/-- On the run the endpoint of `d` was connected after the last step about that of `e`. -/
def ConnectedBefore (steps : List RosterStep) (e d : Device) : Prop :=
  ∃ earlier later, steps = earlier ++ later ∧
    (∃ now d', .connect now d' ∈ later ∧ d'.sameEndpoint d) ∧
    ∀ t ∈ later, ¬ t.device.sameEndpoint e

variable {r : Roster} {ds : List Device} {d e : Device} {i : StreamIntent} {uid : Int32}
variable {steps : List RosterStep} {cs : RouteChains} {names : ChainNames} {table : PrivacyTable}

theorem IsLatest.bound (h : IsLatest ds d) (he : e ∈ ds) : e.connectedAt ≤ d.connectedAt := by
  obtain ⟨before, after, rfl, hbefore, hafter⟩ := h
  rcases List.mem_append.mp he with he | he
  · exact hbefore e he
  · rcases List.mem_cons.mp he with rfl | he
    · exact UInt64.le_refl _
    · exact UInt64.le_of_lt (hafter e he)

theorem IsLatest.cons (h : IsLatest ds d) (he : e.connectedAt ≤ d.connectedAt) :
    IsLatest (e :: ds) d := by
  obtain ⟨before, after, rfl, hbefore, hafter⟩ := h
  exact ⟨e :: before, after, rfl, List.forall_mem_cons.mpr ⟨he, hbefore⟩, hafter⟩

theorem IsLatest.insert {best : Device} (h : IsLatest (best :: ds) d)
    (he : e.connectedAt < best.connectedAt) : IsLatest (best :: e :: ds) d := by
  have hbest := h.bound List.mem_cons_self
  obtain ⟨before, after, hds, hbefore, hafter⟩ := h
  cases before with
  | nil =>
      obtain ⟨rfl, rfl⟩ := List.cons.inj hds
      exact ⟨[], e :: ds, rfl, hbefore, List.forall_mem_cons.mpr ⟨he, hafter⟩⟩
  | cons first before =>
      obtain ⟨rfl, rfl⟩ := List.cons.inj hds
      obtain ⟨hfirst, hrest⟩ := List.forall_mem_cons.mp hbefore
      have hpassed : e.connectedAt ≤ d.connectedAt :=
        UInt64.le_of_lt (UInt64.lt_of_lt_of_le he hbest)
      exact ⟨best :: e :: before, after, rfl,
        List.forall_mem_cons.mpr ⟨hfirst, List.forall_mem_cons.mpr ⟨hpassed, hrest⟩⟩, hafter⟩

theorem isLatest_latestDevice (h : ds ≠ []) : IsLatest ds (latestDevice ds) := by
  unfold latestDevice
  dsimp only
  generalize hnewer : (fun (best : Option Device) (d : Device) => _) = newer
  have hfold : ∀ (ds : List Device) (best : Device),
      ∃ d, ds.foldl newer (some best) = some d ∧ IsLatest (best :: ds) d := by
    intro ds
    induction ds with
    | nil => exact fun best => ⟨best, rfl, [], [], rfl, by simp, by simp⟩
    | cons e ds ih =>
        intro best
        rw [List.foldl_cons]
        by_cases hkeep : best.connectedAt > e.connectedAt
        · have hstep : newer (some best) e = some best := by
            subst hnewer
            exact if_pos hkeep
          obtain ⟨d, hd, hlatest⟩ := ih best
          rw [hstep]
          exact ⟨d, hd, hlatest.insert hkeep⟩
        · have hstep : newer (some best) e = some e := by
            subst hnewer
            exact if_neg hkeep
          obtain ⟨d, hd, hlatest⟩ := ih e
          rw [hstep]
          have hbest : best.connectedAt ≤ e.connectedAt := UInt64.not_lt.mp hkeep
          exact ⟨d, hd, hlatest.cons (UInt64.le_trans hbest (hlatest.bound List.mem_cons_self))⟩
  cases ds with
  | nil => exact absurd rfl h
  | cons e ds =>
      have hfirst : newer none e = some e := by
        subst hnewer
        rfl
      obtain ⟨d, hd, hlatest⟩ := hfold ds e
      rw [List.foldl_cons, hfirst, hd]
      exact hlatest

namespace Roster

theorem connect_of_mem_standing (h : d ∈ r.standing steps) :
    ∃ now d', .connect now d' ∈ steps ∧ d'.sameEndpoint d := by
  induction steps with
  | nil => cases h
  | cons t later ih =>
      rw [standing, List.mem_append, List.mem_filter] at h
      rcases h with ⟨harrived, -⟩ | hlater
      · have hsame := Device.sameEndpoint_symm (sameEndpoint_of_arrived harrived)
        cases t with
        | connect now d' => exact ⟨now, d', List.mem_cons_self, hsame⟩
        | disconnect d' => cases harrived
      · obtain ⟨now, d', hmem, hsame⟩ := ih hlater
        exact ⟨now, d', List.mem_cons_of_mem _ hmem, hsame⟩

/-- The connections that stand are in the order in which they were made. -/
theorem pairwise_standing (r : Roster) (steps : List RosterStep) :
    (r.standing steps).Pairwise (ConnectedBefore steps) := by
  induction steps with
  | nil => exact List.Pairwise.nil
  | cons t later ih =>
      rw [standing, List.pairwise_append]
      refine ⟨?_, ?_, fun e he d hd => ?_⟩
      · refine List.Pairwise.filter _ ?_
        cases t with
        | connect now d => exact List.pairwise_singleton _ _
        | disconnect d => exact List.Pairwise.nil
      · refine ih.imp fun hbefore => ?_
        obtain ⟨earlier, rest, hsteps, hconnected⟩ := hbefore
        exact ⟨t :: earlier, rest, by rw [hsteps, List.cons_append], hconnected⟩
      · have hlast := (List.mem_filter.mp he).2
        rw [Bool.not_eq_true', List.any_eq_false] at hlast
        exact ⟨[t], later, rfl, connect_of_mem_standing hd, hlast⟩

theorem pairwise_connected (table : PrivacyTable) (render capture : DeviceType)
    (steps : List RosterStep) :
    ((vacant table render capture).run steps).connected.Pairwise (ConnectedBefore steps) := by
  rw [connected_run]
  exact pairwise_standing _ steps

theorem Consistent.choices_sublist (h : r.Consistent) (i : StreamIntent) (name : String) :
    (r.choices i name).Sublist r.connected := by
  have hpart : ∀ p, (r.partition p).Sublist r.connected := by
    intro p
    rw [h p]
    exact List.filter_sublist
  unfold choices
  split
  · cases i.category.privatePart? with
    | none => exact List.nil_sublist _
    | some p => exact hpart p
  · split
    · exact hpart _
    · split
      · exact List.filter_sublist
      · exact List.nil_sublist _

/-- No rule offers what is no device, unless the table has a row for it. -/
theorem Consistent.real_of_mem_partition (h : r.Consistent)
    (htable : ∀ row ∈ r.table, row.type ≠ .none) {p : Partition} {c : Privacy}
    (hp : p.privacy = some c) (hd : d ∈ r.partition p) : ¬ d.isNone := by
  obtain ⟨row, hrow, htype, -⟩ :=
    PrivacyTable.row_of_mem_classify (h.mem_partition.mp hd).2 hp
  have hreal : d.type ≠ .none := htype ▸ htable row hrow
  simpa [Device.isNone] using hreal

theorem Consistent.real_of_mem_choices (h : r.Consistent)
    (htable : ∀ row ∈ r.table, row.type ≠ .none) {name : String} (hd : d ∈ r.choices i name) :
    ¬ d.isNone := by
  unfold choices at hd
  split at hd
  · cases hpart : i.category.privatePart? with
    | none =>
        rw [hpart] at hd
        cases hd
    | some p =>
        rw [hpart] at hd
        exact h.real_of_mem_partition htable (privacy_of_privatePart? hpart) hd
  · split at hd
    · exact h.real_of_mem_partition htable (privacy_publicPart i) hd
    · split at hd
      · simp only [List.mem_filter, Bool.and_eq_true, Bool.not_eq_true'] at hd
        rw [hd.2.2]
        exact Bool.false_ne_true
      · cases hd

/-- Of the choices of a rule the latest comes after every other. -/
theorem Consistent.earlier_of_choices (h : r.Consistent)
    (horder : r.connected.Pairwise (ConnectedBefore steps)) {name : String}
    (he : e ∈ r.choices i name) (hother : e ≠ latestDevice (r.choices i name)) :
    e.connectedAt < (latestDevice (r.choices i name)).connectedAt ∨
      e.connectedAt = (latestDevice (r.choices i name)).connectedAt ∧
        ConnectedBefore steps e (latestDevice (r.choices i name)) := by
  have hchoices := horder.sublist (h.choices_sublist i name)
  have hlatest := isLatest_latestDevice (List.ne_nil_of_mem he)
  generalize latestDevice (r.choices i name) = d at hother hlatest ⊢
  generalize r.choices i name = ds at he hchoices hlatest
  obtain ⟨before, after, rfl, hbefore, hafter⟩ := hlatest
  rcases List.mem_append.mp he with he | he
  · have hearlier := (List.pairwise_append.mp hchoices).2.2 e he d List.mem_cons_self
    rcases UInt64.lt_or_eq_of_le (hbefore e he) with hlt | heq
    · exact Or.inl hlt
    · exact Or.inr ⟨heq, hearlier⟩
  · exact Or.inl (hafter e ((List.mem_cons.mp he).resolve_left hother))

/-- A rule chooses the latest of its choices, or nothing if it has none. -/
theorem choose_eq {rule : RouteRule} (hrule : rule ∈ builtIn) (i : StreamIntent) (uid : Int32) :
    if r.choices i rule.name = [] then (rule.choose r i uid).isNone
    else rule.choose r i uid = latestDevice (r.choices i rule.name) := by
  have hsame : r.choices i rule.name = rule.candidates r i uid →
      if r.choices i rule.name = [] then (rule.choose r i uid).isNone
      else rule.choose r i uid = latestDevice (r.choices i rule.name) := by
    intro hchoices
    unfold RouteRule.choose
    rw [hchoices]
    split
    · rename_i hnil
      rw [hnil]
      rfl
    · rfl
  rcases RouteRule.mem_builtIn.mp hrule with rfl | rfl | rfl
  · exact hsame (candidates_privacyPriority r i uid).symm
  · exact hsame (candidates_publicPriority r i uid).symm
  · by_cases hnone : r.lastResort i = .none
    · have hnil : r.choices i fallback.name = [] := by
        refine List.filter_eq_nil_iff.mpr fun d _ hkeep => ?_
        rw [hnone] at hkeep
        simp [Device.isNone] at hkeep
        exact hkeep.2 hkeep.1.1
      rw [if_pos hnil]
      exact isNone_choose_fallback hnone
    · refine hsame ?_
      rw [candidates_fallback]
      refine List.filter_congr fun d _ => ?_
      by_cases htype : d.type = r.lastResort i
      · simp [Device.isNone, htype, hnone]
      · simp [htype]

end Roster

namespace RouteChains

/-- Along the rules of some names the first with choices decides. -/
theorem firstChoice_eq (h : r.Consistent) (htable : ∀ row ∈ r.table, row.type ≠ .none)
    {ns : List String} {chain : List RouteRule}
    (hchain : ns.mapM (RouteChains.rule builtIn) = .ok chain) (i : StreamIntent) (uid : Int32) :
    firstChoice r i uid chain =
      (((ns.map (r.choices i)).find? (· ≠ [])).map latestDevice).getD Device.none := by
  induction ns generalizing chain with
  | nil =>
      cases hchain
      rfl
  | cons n ns ih =>
      rw [List.mapM_cons] at hchain
      cases hn : RouteChains.rule builtIn n with
      | error e =>
          rw [hn] at hchain
          cases hchain
      | ok rule =>
          rw [hn] at hchain
          cases hns : ns.mapM (RouteChains.rule builtIn) with
          | error e =>
              rw [hns] at hchain
              cases hchain
          | ok rest =>
              rw [hns] at hchain
              cases hchain
              obtain ⟨hrule, rfl⟩ := rule_ok hn
              have hchoose := Roster.choose_eq (r := r) hrule i uid
              rw [List.map_cons, firstChoice]
              by_cases hnil : r.choices i rule.name = []
              · rw [if_pos hnil] at hchoose
                rw [if_pos hchoose, ih hns, List.find?_cons_of_neg (by simpa using hnil)]
              · rw [if_neg hnil] at hchoose
                have hreal : ¬ (rule.choose r i uid).isNone := by
                  rw [hchoose]
                  exact h.real_of_mem_choices htable (latestDevice_mem hnil)
                rw [if_neg hreal, hchoose, List.find?_cons_of_pos (by simpa using hnil)]
                rfl

end RouteChains

/-- After every run, for every privacy table without a row for the type that is no device, every
chains of the built-in rules and every user: a stream gets no device exactly if no rule of its
chain has any to choose from. Else it gets one of the first rule that has, and every other device
of this rule was connected at an earlier time, or at the same time by an earlier step. -/
theorem route_takes_latest (h : RouteChains.ofNames builtIn names = .ok cs)
    (htable : ∀ row ∈ table, row.type ≠ .none) (render capture : DeviceType)
    (steps : List RosterStep) (i : StreamIntent) (uid : Int32) :
    let r := (Roster.vacant table render capture).run steps
    let sets := (names.get i.category).map (r.choices i)
    let d := cs.route r i uid
    (d = Device.none ↔ ∀ set ∈ sets, set = []) ∧
      ∀ set, sets.find? (· ≠ []) = some set →
        d ∈ set ∧ ∀ e ∈ set, e ≠ d →
          e.connectedAt < d.connectedAt ∨
            e.connectedAt = d.connectedAt ∧ ConnectedBefore steps e d := by
  intro r sets d
  have hconsistent : r.Consistent := (Roster.consistent_vacant table render capture).run steps
  have hreal : ∀ row ∈ r.table, row.type ≠ .none := by
    rw [((Roster.vacant table render capture).settings_run steps).1]
    exact htable
  have hd : d = ((sets.find? (· ≠ [])).map latestDevice).getD Device.none :=
    RouteChains.firstChoice_eq hconsistent hreal (RouteChains.chain_of_names h i.category) i uid
  -- The first set that is not empty is that of some rule.
  have hfirst : ∀ set, sets.find? (· ≠ []) = some set →
      set ≠ [] ∧ ∃ name, r.choices i name = set := by
    intro set hset
    obtain ⟨name, -, hname⟩ := List.mem_map.mp (List.mem_of_find?_eq_some hset)
    exact ⟨by simpa using List.find?_some hset, name, hname⟩
  constructor
  · cases hfind : sets.find? (· ≠ []) with
    | none =>
        rw [hfind] at hd
        refine iff_of_true hd fun set hset => ?_
        simpa using List.find?_eq_none.mp hfind set hset
    | some set =>
        obtain ⟨hne, name, rfl⟩ := hfirst set hfind
        rw [hfind] at hd
        have hsome : ¬ d.isNone :=
          hd ▸ hconsistent.real_of_mem_choices hreal (latestDevice_mem hne)
        refine iff_of_false (fun hnone => hsome (by rw [hnone]; rfl)) fun hall => ?_
        exact hne (hall _ (List.mem_of_find?_eq_some hfind))
  · intro set hset
    obtain ⟨hne, name, rfl⟩ := hfirst set hset
    rw [hset] at hd
    have horder := Roster.pairwise_connected table render capture steps
    rw [show d = latestDevice (r.choices i name) from hd]
    exact ⟨latestDevice_mem hne, fun e he hother =>
      hconsistent.earlier_of_choices horder he hother⟩

/-- Of two headsets of one time the one that came back is taken, although it was there first. -/
theorem headset_that_came_back_taken :
    ∃ cs, RouteChains.ofNames builtIn {} = .ok cs ∧
      (∀ row ∈ PrivacyTable.builtIn, row.type ≠ .none) ∧
      let left : Device := { type := .wiredHeadset, role := .output, connectedAt := 1, mac := "l" }
      let right : Device := { left with mac := "r" }
      let steps : List RosterStep := [.connect 1 left, .connect 1 right, .connect 1 left]
      let r := (Roster.vacant .builtIn .speaker .mic).run steps
      let d := cs.route r (.render .music) 0
      d.mac = "l" ∧ ∀ e ∈ r.partition (.mediaRender .isPrivate), e ≠ d →
        e.connectedAt < d.connectedAt ∨
          e.connectedAt = d.connectedAt ∧ ConnectedBefore steps e d := by
  have hnames : RouteChains.ofNames builtIn {} = .ok _ := rfl
  have hreal : ∀ row ∈ PrivacyTable.builtIn, row.type ≠ .none := by decide
  refine ⟨_, hnames, hreal, ?_⟩
  intro left right steps r d
  have htaken := (route_takes_latest hnames hreal .speaker .mic steps (.render .music) 0).2
    (r.partition (.mediaRender .isPrivate)) (by decide)
  exact ⟨by decide, htaken.2⟩

/-- A last resort of the type that is no device answers no stream, although a device of this type
and of the role of the stream is connected. -/
theorem last_resort_of_no_type_answers_nothing :
    ∃ cs, RouteChains.ofNames builtIn {} = .ok cs ∧
      let d : Device := { type := .none, role := .output, connectedAt := 1 }
      let r := (Roster.vacant .builtIn .none .mic).run [.connect 1 d]
      (r.connected.filter fun e => e.type = r.defaultRender && e.role = .output) = [d] ∧
        fallback.candidates r (.render .music) 0 = [d] ∧
        cs.route r (.render .music) 0 = Device.none ∧ Device.none ∉ [d] := by
  refine ⟨_, rfl, ?_⟩
  decide

end Patchbay
