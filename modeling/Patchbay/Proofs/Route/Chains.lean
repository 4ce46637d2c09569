import Patchbay.Proofs.Tables
import Patchbay.Route.Chain

/-!
# Chains by name

The chains that a program uses are looked up by the names of their rules, so the names decide
which rules a chain has. The first choice along a chain depends on what its rules choose and on
nothing else.
-/
namespace Patchbay

variable {α β ε : Type}

/-- A list that was looked up place by place holds the answers of all places and nothing else. -/
theorem mem_of_mapM_ok {f : α → Except ε β} {l : List α} {l' : List β} (h : l.mapM f = .ok l') :
    (∀ b ∈ l', ∃ a ∈ l, f a = .ok b) ∧ ∀ a ∈ l, ∃ b ∈ l', f a = .ok b := by
  induction l generalizing l' with
  | nil =>
      cases h
      exact ⟨fun b hb => absurd hb List.not_mem_nil, fun a ha => absurd ha List.not_mem_nil⟩
  | cons a l ih =>
      rw [List.mapM_cons] at h
      cases ha : f a with
      | error e =>
          rw [ha] at h
          cases h
      | ok b =>
          rw [ha] at h
          cases hl : l.mapM f with
          | error e =>
              rw [hl] at h
              cases h
          | ok bs =>
              rw [hl] at h
              cases h
              obtain ⟨hout, hin⟩ := ih hl
              refine ⟨fun b' hb => ?_, fun a' ha' => ?_⟩
              · rcases List.mem_cons.mp hb with rfl | hb
                · exact ⟨a, List.mem_cons_self, ha⟩
                · obtain ⟨a', ha', hf⟩ := hout b' hb
                  exact ⟨a', List.mem_cons_of_mem _ ha', hf⟩
              · rcases List.mem_cons.mp ha' with rfl | ha'
                · exact ⟨b, List.mem_cons_self, ha⟩
                · obtain ⟨b', hb, hf⟩ := hin a' ha'
                  exact ⟨b', List.mem_cons_of_mem _ hb, hf⟩

theorem RouteRule.mem_builtIn {rule : RouteRule} :
    rule ∈ builtIn ↔ rule = privacyPriority ∨ rule = publicPriority ∨ rule = fallback := by
  simp [builtIn]

namespace RouteChains
open RouteRule

variable {cs : RouteChains} {names : ChainNames} {known : List RouteRule} {rule : RouteRule}

theorem lookup_ok {c : RouteCategory} {e : RouteCategory × List RouteRule}
    (h : (do
      let chain ← (names.get c).mapM (RouteChains.rule known)
      pure (c, chain)) = Except.ok (ε := DeviceError) e) :
    e.1 = c ∧ (names.get c).mapM (RouteChains.rule known) = .ok e.2 := by
  cases hchain : (names.get c).mapM (RouteChains.rule known) with
  | error e =>
      rw [hchain] at h
      cases h
  | ok chain =>
      rw [hchain] at h
      cases h
      exact ⟨rfl, rfl⟩

theorem chain_of_names (h : ofNames known names = .ok cs) (c : RouteCategory) :
    (names.get c).mapM (RouteChains.rule known) = .ok (cs.chain c) := by
  have hall : c ∈ RouteCategory.all := by cases c <;> decide
  obtain ⟨entries, hentries, rfl⟩ : ∃ entries, (RouteCategory.all.mapM fun c => do
      let chain ← (names.get c).mapM (RouteChains.rule known)
      pure (c, chain)) = Except.ok entries ∧ Table.ofList entries = cs := by
    unfold ofNames at h
    generalize (RouteCategory.all.mapM fun c => do
      let chain ← (names.get c).mapM (RouteChains.rule known)
      pure (c, chain)) = looked at h ⊢
    cases looked with
    | error e => cases h
    | ok entries => exact ⟨entries, rfl, Except.ok.inj h⟩
  obtain ⟨hout, hin⟩ := mem_of_mapM_ok hentries
  obtain ⟨e, he, hc⟩ := hin c hall
  have hkey : c ∈ (Table.ofList entries).keys :=
    (Table.mem_keys_ofList entries c).mpr ((lookup_ok hc).1 ▸ List.mem_map_of_mem he)
  obtain ⟨chain, hchain⟩ := (Table.mem_keys_iff_get? _ c).mp hkey
  obtain ⟨c', -, hc'⟩ := hout _ (Table.mem_of_mem_ofList (Table.get?_eq_some_iff.mp hchain))
  obtain ⟨rfl, hlookup⟩ := lookup_ok hc'
  rw [RouteChains.chain, hchain]
  exact hlookup

theorem rule_ok {name : String} (h : RouteChains.rule known name = .ok rule) :
    rule ∈ known ∧ rule.name = name := by
  unfold RouteChains.rule at h
  split at h
  · rename_i r hfind
    cases h
    exact ⟨List.mem_of_find?_eq_some hfind, by simpa using List.find?_some hfind⟩
  · cases h

theorem mem_known_of_mem_chain (h : ofNames known names = .ok cs) {c : RouteCategory}
    (hmem : rule ∈ cs.chain c) : rule ∈ known := by
  obtain ⟨name, -, hname⟩ := (mem_of_mapM_ok (chain_of_names h c)).1 rule hmem
  exact (rule_ok hname).1

/-- The last resort is in a chain exactly if the chain names it. -/
theorem fallback_mem_chain_iff (h : ofNames builtIn names = .ok cs) (c : RouteCategory) :
    fallback ∈ cs.chain c ↔ "default" ∈ names.get c := by
  obtain ⟨hout, hin⟩ := mem_of_mapM_ok (chain_of_names h c)
  constructor
  · intro hmem
    obtain ⟨name, hname, hrule⟩ := hout _ hmem
    have hnamed : "default" = name := (rule_ok hrule).2
    rw [hnamed]
    exact hname
  · intro hname
    obtain ⟨rule, hmem, hrule⟩ := hin _ hname
    have hdefault : RouteChains.rule builtIn "default" = .ok fallback := rfl
    rw [hdefault] at hrule
    cases hrule
    exact hmem

end RouteChains

theorem latestDevice_mem {ds : List Device} (h : ds ≠ []) : latestDevice ds ∈ ds := by
  unfold latestDevice
  dsimp only
  generalize hnewer : (fun (best : Option Device) (d : Device) => _) = newer
  have hfold : ∀ (ds : List Device) (best : Device),
      ∃ d ∈ best :: ds, ds.foldl newer (some best) = some d := by
    intro ds
    induction ds with
    | nil => exact fun best => ⟨best, List.mem_cons_self, rfl⟩
    | cons e ds ih =>
        intro best
        have hstep : newer (some best) e = some best ∨ newer (some best) e = some e := by
          subst hnewer
          dsimp only
          split
          · exact Or.inl rfl
          · exact Or.inr rfl
        rw [List.foldl_cons]
        rcases hstep with hkeep | hnew
        · obtain ⟨d, hd, hlast⟩ := ih best
          rw [hkeep]
          exact ⟨d, (List.mem_cons.mp hd).elim (fun hbest => hbest ▸ List.mem_cons_self)
            fun hlater => List.mem_cons_of_mem _ (List.mem_cons_of_mem _ hlater), hlast⟩
        · obtain ⟨d, hd, hlast⟩ := ih e
          rw [hnew]
          exact ⟨d, List.mem_cons_of_mem _ hd, hlast⟩
  cases ds with
  | nil => exact absurd rfl h
  | cons e ds =>
      have hfirst : newer none e = some e := by
        subst hnewer
        rfl
      obtain ⟨d, hd, hlast⟩ := hfold ds e
      rw [List.foldl_cons, hfirst, hlast]
      exact hd

theorem latestDevice_eq_none_or_mem (ds : List Device) :
    latestDevice ds = Device.none ∨ latestDevice ds ∈ ds := by
  cases ds with
  | nil => exact Or.inl rfl
  | cons d ds => exact Or.inr (latestDevice_mem (List.cons_ne_nil d ds))

namespace RouteChains

variable {r r' : Roster} {i : StreamIntent} {uid : Int32}

/-- Rules that have no opinion do not matter, so two rosters give the same first choice if every
rule chooses the same by both or has no opinion by both. -/
theorem firstChoice_congr {chain : List RouteRule}
    (h : ∀ rule ∈ chain, rule.choose r' i uid = rule.choose r i uid ∨
      (rule.choose r' i uid).isNone ∧ (rule.choose r i uid).isNone) :
    firstChoice r' i uid chain = firstChoice r i uid chain := by
  induction chain with
  | nil => rfl
  | cons rule rest ih =>
      have hrest := ih fun rule hrule => h rule (List.mem_cons_of_mem _ hrule)
      unfold firstChoice
      dsimp only
      rcases h rule List.mem_cons_self with hsame | ⟨hnone', hnone⟩
      · rw [hsame, hrest]
      · rw [if_pos hnone', if_pos hnone, hrest]

theorem firstChoice_eq_none {chain : List RouteRule}
    (h : ∀ rule ∈ chain, (rule.choose r i uid).isNone) :
    firstChoice r i uid chain = Device.none := by
  induction chain with
  | nil => rfl
  | cons rule rest ih =>
      unfold firstChoice
      dsimp only
      rw [if_pos (h rule List.mem_cons_self)]
      exact ih fun rule hrule => h rule (List.mem_cons_of_mem _ hrule)

/-- If all rules with an opinion agree, the order of the chain does not matter. -/
theorem firstChoice_eq_of_agree {chain : List RouteRule} {d : Device} (hd : ¬ d.isNone)
    (h : ∀ rule ∈ chain, (rule.choose r i uid).isNone ∨ rule.choose r i uid = d)
    (hmem : ∃ rule ∈ chain, rule.choose r i uid = d) : firstChoice r i uid chain = d := by
  induction chain with
  | nil =>
      obtain ⟨rule, hrule, -⟩ := hmem
      cases hrule
  | cons rule rest ih =>
      unfold firstChoice
      dsimp only
      rcases h rule List.mem_cons_self with hnone | hsome
      · rw [if_pos hnone]
        refine ih (fun rule hrule => h rule (List.mem_cons_of_mem _ hrule)) ?_
        obtain ⟨found, hfound, hchoose⟩ := hmem
        rcases List.mem_cons.mp hfound with rfl | hrest
        · rw [hchoose] at hnone
          exact absurd hnone hd
        · exact ⟨found, hrest, hchoose⟩
      · rw [hsome, if_neg hd]

end RouteChains
end Patchbay
