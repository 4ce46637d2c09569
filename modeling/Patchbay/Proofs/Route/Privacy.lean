import Patchbay.Proofs.Device.Connections
import Patchbay.Proofs.Route.ChangeCoverage

/-!
# Who hears a stream

A connected device has the privacy class that the table gives its type, so a partition of private
devices has private members and a partition of public ones public members. By the chains of the
defaults a stream then goes to a private device whenever its private partition has one, rings and
tones go to public devices, and no stream goes to a device that is not connected in its role.
-/
namespace Patchbay
open RouteRule

/-- All rows of a type give it one privacy class. -/
def PrivacyTable.Unmixed (table : PrivacyTable) : Prop :=
  ∀ row ∈ table, ∀ other ∈ table, row.type = other.type → row.privacy = other.privacy

instance (table : PrivacyTable) : Decidable table.Unmixed :=
  inferInstanceAs (Decidable (∀ row ∈ table, ∀ other ∈ table, _ → _))

/-- Connected devices are kept under the privacy class of their partitions. -/
def Roster.Stamped (r : Roster) : Prop :=
  ∀ d ∈ r.connected, ∀ p ∈ r.classify d, ∀ c, p.privacy = some c → d.privacy = c

variable {table : PrivacyTable} {r : Roster} {d : Device} {p : Partition} {c : Privacy}
variable {i : StreamIntent} {uid : Int32} {cs : RouteChains}

theorem PrivacyTable.role_of_mem_classify (h : p ∈ table.classify d) : d.role = p.role := by
  rcases mem_classify.mp h with hremote | ⟨hrole, -⟩
  · unfold remotePart at hremote
    split at hremote
    · split at hremote <;> simp_all [Partition.role]
    · cases hremote
  · exact hrole

/-- A row stands behind every partition that has a privacy class. -/
theorem PrivacyTable.row_of_mem_classify (h : p ∈ table.classify d) (hc : p.privacy = some c) :
    ∃ row ∈ table, row.type = d.type ∧ row.privacy = c := by
  rcases mem_classify.mp h with hremote | ⟨-, hadmits⟩
  · rw [privacy_of_mem_remotePart hremote] at hc
    cases hc
  · obtain ⟨row, hrow, hadmits⟩ := List.any_eq_true.mp hadmits
    simp only [PrivacyRow.admits, hc, Bool.and_eq_true, decide_eq_true_eq,
      Option.some.injEq] at hadmits
    exact ⟨row, hrow, hadmits.1.1.1, hadmits.1.1.2.symm⟩

theorem PrivacyTable.Unmixed.privacy_eq (h : table.Unmixed) {q : Partition} {b : Privacy}
    (hp : p ∈ table.classify d) (hc : p.privacy = some c) (hq : q ∈ table.classify d)
    (hb : q.privacy = some b) : c = b := by
  obtain ⟨row, hrow, htype, rfl⟩ := row_of_mem_classify hp hc
  obtain ⟨other, hother, hothertype, rfl⟩ := row_of_mem_classify hq hb
  exact h row hrow other hother (htype.trans hothertype.symm)

namespace Roster

/-- Connecting a device does not change which partitions it belongs to. -/
theorem classify_stamp (r : Roster) (now : UInt64) (d : Device) :
    r.classify (r.stamp now d) = r.classify d := by
  obtain ⟨time, privacy, hstamp⟩ := r.stamp_cases now d
  rw [hstamp]
  rfl

theorem privacy_stamp (h : r.table.Unmixed) (now : UInt64) (hp : p ∈ r.classify d)
    (hc : p.privacy = some c) : (r.stamp now d).privacy = c := by
  unfold stamp
  dsimp only
  generalize he : (if d.connectedAt = 0 then { d with connectedAt := now } else d) = e
  have hsame : r.classify e = r.classify d := by
    rw [← he]
    split <;> rfl
  rw [hsame]
  split
  · rename_i b hfirst
    obtain ⟨q, hq, hb⟩ := List.exists_of_findSome?_eq_some hfirst
    exact (h.privacy_eq hp hc hq hb).symm
  · rename_i hnone
    rw [List.findSome?_eq_none_iff] at hnone
    rw [hnone p hp] at hc
    cases hc

theorem Stamped.step (h : r.Stamped) (htable : r.table.Unmixed) (t : RosterStep) :
    (r.step t).2.Stamped := by
  have hsame : (r.step t).2.table = r.table := (r.settings_run [t]).1
  intro d hd p hp c hc
  rw [classify, hsame] at hp
  rw [connected_step, List.mem_append] at hd
  rcases hd with hkept | harrived
  · exact h d (List.mem_filter.mp hkept).1 p hp c hc
  · cases t with
    | connect now e =>
        rw [RosterStep.arrived, List.mem_singleton] at harrived
        subst harrived
        have he : p ∈ r.classify e := classify_stamp r now e ▸ hp
        exact privacy_stamp htable now he hc
    | disconnect e => cases harrived

theorem Stamped.run (h : r.Stamped) (htable : r.table.Unmixed) (steps : List RosterStep) :
    (r.run steps).Stamped := by
  induction steps generalizing r with
  | nil => exact h
  | cons t rest ih =>
      have hsame : (r.step t).2.table = r.table := (r.settings_run [t]).1
      exact ih (h.step htable t) (hsame ▸ htable)

theorem Consistent.mem_partition (h : r.Consistent) :
    d ∈ r.partition p ↔ d ∈ r.connected ∧ p ∈ r.classify d := by
  rw [h p, List.mem_filter, decide_eq_true_eq]

end Roster

namespace RouteChains

theorem firstChoice_eq_none_or_mem (r : Roster) (i : StreamIntent) (uid : Int32)
    (chain : List RouteRule) :
    firstChoice r i uid chain = Device.none ∨
      ∃ rule ∈ chain, firstChoice r i uid chain ∈ rule.candidates r i uid := by
  induction chain with
  | nil => exact Or.inl rfl
  | cons rule rest ih =>
      unfold firstChoice
      dsimp only
      split
      · refine ih.imp id fun hlater => ?_
        obtain ⟨later, hmem, hchosen⟩ := hlater
        exact ⟨later, List.mem_cons_of_mem _ hmem, hchosen⟩
      · refine (latestDevice_eq_none_or_mem (rule.candidates r i uid)).imp id fun hchosen => ?_
        exact ⟨rule, List.mem_cons_self, hchosen⟩

/-- A rule at the head of a chain that has real candidates decides. -/
theorem firstChoice_cons_mem {rule : RouteRule} (rest : List RouteRule)
    (h : rule.candidates r i uid ≠ []) (hreal : ∀ d ∈ rule.candidates r i uid, ¬ d.isNone) :
    firstChoice r i uid (rule :: rest) ∈ rule.candidates r i uid := by
  have hmem : rule.choose r i uid ∈ rule.candidates r i uid := latestDevice_mem h
  unfold firstChoice
  dsimp only
  rw [if_neg (hreal _ hmem)]
  exact hmem

/-- By the names of the defaults every category has all rules, the private one first. -/
theorem chain_of_defaults : ∃ cs, ofNames builtIn {} = .ok cs ∧ ∀ c, cs.chain c = builtIn :=
  ⟨_, rfl, fun c => by cases c <;> rfl⟩

end RouteChains

/-- Every rule chooses among the connected devices of the role. -/
theorem connected_of_candidate (h : r.Consistent) {rule : RouteRule} (hrule : rule ∈ builtIn)
    (hd : d ∈ rule.candidates r i uid) : d ∈ r.connected ∧ d.role = i.role := by
  have hpart : ∀ rule, rule = privacyPriority ∨ rule = publicPriority →
      d ∈ rule.candidates r i uid → d ∈ r.connected ∧ d.role = i.role := by
    intro rule hrule hd
    rcases candidates_eq_partition hrule i with ⟨p, hrole, hp⟩ | hnone
    · rw [hp] at hd
      obtain ⟨hconnected, hclass⟩ := h.mem_partition.mp hd
      exact ⟨hconnected, (PrivacyTable.role_of_mem_classify hclass).trans hrole⟩
    · rw [hnone] at hd
      cases hd
  rcases RouteRule.mem_builtIn.mp hrule with hprivate | hpublic | rfl
  · exact hpart rule (Or.inl hprivate) hd
  · exact hpart rule (Or.inr hpublic) hd
  · rw [candidates_fallback] at hd
    simpa using (List.mem_filter.mp hd).imp_right fun hkeep => (Bool.and_eq_true_iff.mp hkeep).2

/-- A chain of such rules leads to a connected device of the role, or nowhere. -/
theorem route_connected (h : r.Consistent)
    (hchain : ∀ rule ∈ cs.chain i.category, rule ∈ builtIn) :
    cs.route r i uid = Device.none ∨
      cs.route r i uid ∈ r.connected ∧ (cs.route r i uid).role = i.role := by
  unfold RouteChains.route
  refine (RouteChains.firstChoice_eq_none_or_mem r i uid _).imp id fun hchosen => ?_
  obtain ⟨rule, hrule, hmem⟩ := hchosen
  exact connected_of_candidate h (hchain rule hrule) hmem

theorem privacy_of_privatePart? {k : RouteCategory} (h : k.privatePart? = some p) :
    p.privacy = some .isPrivate := by
  cases k <;> cases h <;> rfl

theorem privacy_publicPart (i : StreamIntent) : i.publicPart.privacy = some .isPublic := by
  cases i with
  | render u =>
      rw [StreamIntent.publicPart]
      split <;> rfl
  | capture s => rfl

theorem route_private (h : r.Consistent) (hstamped : r.Stamped)
    (hreal : ∀ row ∈ r.table, row.type ≠ .none) (hchain : cs.chain i.category = builtIn)
    (hp : i.category.privatePart? = some p) (hmember : r.partition p ≠ []) :
    cs.route r i uid ∈ r.partition p ∧ (cs.route r i uid).privacy = .isPrivate := by
  have hclass := privacy_of_privatePart? hp
  have hcandidates : privacyPriority.candidates r i uid = r.partition p := by
    rw [candidates_privacyPriority, hp]
    rfl
  have hroute : cs.route r i uid ∈ r.partition p := by
    unfold RouteChains.route
    rw [hchain, ← hcandidates]
    refine RouteChains.firstChoice_cons_mem _ (hcandidates ▸ hmember) fun d hd => ?_
    rw [hcandidates] at hd
    obtain ⟨row, hrow, htype, -⟩ :=
      PrivacyTable.row_of_mem_classify (h.mem_partition.mp hd).2 hclass
    have hnone : d.type ≠ .none := htype ▸ hreal row hrow
    simpa [Device.isNone] using hnone
  obtain ⟨hconnected, hmem⟩ := h.mem_partition.mp hroute
  exact ⟨hroute, hstamped _ hconnected p hmem _ hclass⟩

/-- A stream without a private partition goes to public devices only, if its last resort is one
that the table holds public. -/
theorem route_public (h : r.Consistent) (hstamped : r.Stamped)
    (hchain : cs.chain i.category = builtIn) (hp : i.category.privatePart? = none)
    (hlast : ∃ p : Partition, p.role = i.role ∧ p.privacy = some .isPublic ∧
      r.table.any (·.admits (r.lastResort i) p)) :
    (cs.route r i uid).privacy = .isPublic := by
  unfold RouteChains.route
  rw [hchain]
  rcases RouteChains.firstChoice_eq_none_or_mem r i uid builtIn with hnone | hchosen
  · rw [hnone]
    rfl
  obtain ⟨rule, hrule, hmem⟩ := hchosen
  generalize RouteChains.firstChoice r i uid builtIn = d at hmem ⊢
  rcases RouteRule.mem_builtIn.mp hrule with rfl | rfl | rfl
  · rw [candidates_privacyPriority, hp] at hmem
    cases hmem
  · rw [candidates_publicPriority] at hmem
    obtain ⟨hconnected, hclass⟩ := h.mem_partition.mp hmem
    exact hstamped d hconnected _ hclass _ (privacy_publicPart i)
  · -- The last resort reads no partition, but its devices belong to a public one.
    rw [candidates_fallback, List.mem_filter, Bool.and_eq_true, decide_eq_true_eq,
      decide_eq_true_eq] at hmem
    obtain ⟨hconnected, htype, hrole⟩ := hmem
    obtain ⟨p, hprole, hclass, hadmits⟩ := hlast
    rw [← htype] at hadmits
    exact hstamped d hconnected p (mem_classify_of_seats hadmits (hprole.trans hrole.symm)) _ hclass

/-- With the table and the chains of the defaults, after every run and for every user: rings and
tones never go to a private device, every other stream goes to a private device whenever its
private partition has one, and a stream that goes to any device goes to one that is connected in
the role of the stream. -/
theorem default_routes_keep_privacy :
    ∃ cs, RouteChains.ofNames builtIn {} = .ok cs ∧
      ∀ (steps : List RosterStep) (i : StreamIntent) (uid : Int32),
        let r := ({} : Roster).run steps
        let d := cs.route r i uid
        (i.category = .ringRender ∨ i.category = .toneRender → d.privacy = .isPublic) ∧
          (∀ p, i.category.privatePart? = some p → r.partition p ≠ [] →
            d ∈ r.partition p ∧ d.privacy = .isPrivate) ∧
          (d = Device.none ∨ d ∈ r.connected ∧ d.role = i.role) := by
  obtain ⟨cs, hnames, hchain⟩ := RouteChains.chain_of_defaults
  refine ⟨cs, hnames, fun steps i uid => ?_⟩
  dsimp only
  have hconsistent : (({} : Roster).run steps).Consistent :=
    (Roster.consistent_vacant .builtIn .speaker .mic).run steps
  have htable : (({} : Roster).run steps).table = .builtIn := (Roster.settings_run {} steps).1
  have hstamped : (({} : Roster).run steps).Stamped := by
    refine Roster.Stamped.run ?_ (by decide) steps
    exact fun d hd => absurd hd List.not_mem_nil
  refine ⟨fun hpublic => ?_, fun p hp hmember => ?_, ?_⟩
  · have hrole : i.role = .output := by
      rcases hpublic with hring | htone
      · rw [StreamIntent.role, hring]
        rfl
      · rw [StreamIntent.role, htone]
        rfl
    have hlast : (({} : Roster).run steps).lastResort i = .speaker := by
      rw [Roster.lastResort_run]
      cases i with
      | render u => rfl
      | capture s =>
          rw [StreamIntent.role_capture] at hrole
          cases hrole
    refine route_public hconsistent hstamped (hchain _) ?_ ?_
    · rcases hpublic with hring | htone
      · rw [hring]
        rfl
      · rw [htone]
        rfl
    · rw [htable, hlast, hrole]
      exact ⟨.mediaRender .isPublic, rfl, rfl, rfl⟩
  · exact route_private hconsistent hstamped (by rw [htable]; decide) (hchain _) hp hmember
  · exact route_connected hconsistent fun rule hrule => hchain _ ▸ hrule

theorem music_to_headset_ringtone_to_speaker :
    ∃ cs, RouteChains.ofNames builtIn {} = .ok cs ∧
      let r := ({} : Roster).run
        [.connect 1 { type := .speaker, role := .output },
          .connect 2 { type := .wiredHeadset, role := .output }]
      r.partition (.mediaRender .isPrivate) ≠ [] ∧
        (cs.route r (.render .music) 0).privacy = .isPrivate ∧
        (cs.route r (.render .ringtone) 0).privacy = .isPublic ∧
        (cs.route r (.render .ringtone) 0).type = .speaker := by
  obtain ⟨cs, hnames, hroutes⟩ := default_routes_keep_privacy
  refine ⟨cs, hnames, by decide, ?_, ?_, ?_⟩
  · exact ((hroutes _ (.render .music) 0).2.1 _ rfl (by decide)).2
  · exact (hroutes _ (.render .ringtone) 0).1 (Or.inl rfl)
  · obtain rfl := Except.ok.inj hnames
    decide

end Patchbay
