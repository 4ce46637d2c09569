import Patchbay.Proofs.Server.Outcomes
import Patchbay.Proofs.Server.Wiring
import Patchbay.Proofs.Wire.Arrivals
import Patchbay.Proofs.Wire.Dispatch

/-!
# From subscriptions to lines

The way of a notice to its connection: from the inbox of its subscription a forwarder takes it to
the line. Whatever others do, what waits in both together leads the owner of a session to the
device that the session is routed to.
-/
namespace Patchbay

/-- The step is not taken by the connection or by the reader of the line. Forwarding is left out:
it is taken one notification at a time. -/
def ServerStep.spares (conn line : Nat) : ServerStep → Bool
  | .connect conn' | .disconnect conn' | .request conn' _ => conn' ≠ conn
  | .readLine line' | .closeLine line' => line' ≠ line
  | .forward => false
  | .devices _ | .change | .event | .share _ _ => true

namespace Server
open Wire (Notification)

variable {s s' : Server} {conn conn' line id box : Nat} {d : Device} {f : Forwarder}

/-- The connection is linked, its line is read, and all that waits there is of sessions that were
made. -/
structure Tied (s : Server) (conn line : Nat) : Prop where
  link : ∃ fs, s.links.get? conn = some ⟨line, fs⟩
  isOpen : s.lines.isOpen line
  dated : ∀ n ∈ s.queued line, ∀ id, n.session? = some id →
    id.toNat < s.station.registry.nextId

/-- What waits for the owner of session `id`, in the inbox `box` and on the line of the connection,
leads from `d` to the device of the session. No other connection has to do with the inbox. -/
structure Leads (s : Server) (conn line id box : Nat) (d : Device) : Prop where
  numbered : id < s.station.registry.nextId
  made : box < s.station.board.board.boxes.length
  holds : s.station.registry.nextId ≤ UInt64.size →
    s.station.board.Holds id box (Wire.leads (.ofNat id) d (s.queued line))
  only : ∀ f ∈ s.forwarders, f.feed = .session box → f.line = line
  own : ∀ e ∈ s.links.toList, e.1 ≠ conn → ∀ f ∈ e.2.forwarders, f.feed ≠ .session box

/-- Where the number is not too large to be told, only the beginning matters. -/
theorem Leads.congr (h : s.Leads conn line id box d) {d' : Device}
    (hd : s.station.registry.nextId ≤ UInt64.size → d' = d) : s.Leads conn line id box d' :=
  { h with holds := fun hsize => hd hsize ▸ h.holds hsize }

/-- From `s` to `s'` the connection stays linked and all that leads to its line goes on to. -/
structure Steers (conn line : Nat) (s s' : Server) : Prop where
  nextId : s.station.registry.nextId ≤ s'.station.registry.nextId
  tied : s.Tied conn line → s'.Tied conn line
  leads : ∀ {id box d}, s.Leads conn line id box d → s'.Leads conn line id box d

theorem Steers.refl (s : Server) : Steers conn line s s :=
  ⟨Nat.le_refl _, id, id⟩

theorem Tied.later (h : s.Tied conn line)
    (hnext : s.station.registry.nextId ≤ s'.station.registry.nextId)
    (hlink : ∃ fs, s'.links.get? conn = some ⟨line, fs⟩) (hopen : s'.lines.isOpen line)
    (hqueued : ∀ n ∈ s'.queued line, n ∈ s.queued line ∨
      ∀ id, n.session? = some id → id.toNat < s'.station.registry.nextId) : s'.Tied conn line where
  link := hlink
  isOpen := hopen
  dated := by
    intro n hn id hid
    rcases hqueued n hn with hn | hdated
    · exact Nat.lt_of_lt_of_le (h.dated n hn id hid) hnext
    · exact hdated id hid

theorem Leads.later (h : s.Leads conn line id box d)
    (hnext : s.station.registry.nextId ≤ s'.station.registry.nextId)
    (hboxes : s.station.board.board.boxes.length ≤ s'.station.board.board.boxes.length)
    (hholds : s.station.registry.nextId ≤ UInt64.size →
      s.station.board.Holds id box (Wire.leads (.ofNat id) d (s.queued line)) →
      s'.station.board.Holds id box (Wire.leads (.ofNat id) d (s'.queued line)))
    (hforwarders : ∀ f ∈ s'.forwarders, f ∈ s.forwarders ∨ (f.feed = .session box → f.line = line))
    (hlinks : ∀ e ∈ s'.links.toList, e.1 ≠ conn → ∀ f ∈ e.2.forwarders, f.feed = .session box →
      ∃ e' ∈ s.links.toList, e'.1 ≠ conn ∧ f ∈ e'.2.forwarders) : s'.Leads conn line id box d where
  numbered := Nat.lt_of_lt_of_le h.numbered hnext
  made := Nat.lt_of_lt_of_le h.made hboxes
  holds hsize := hholds (Nat.le_trans hnext hsize) (h.holds (Nat.le_trans hnext hsize))
  only := by
    intro f hf hfeed
    rcases hforwarders f hf with hf | honly
    · exact h.only f hf hfeed
    · exact honly hfeed
  own := by
    intro e he hne f hf hfeed
    obtain ⟨e', he', hne', hf'⟩ := hlinks e he hne f hf hfeed
    exact h.own e' he' hne' f hf' hfeed

theorem steers_of_maintains (h : s.Maintains s') : Steers conn line s s' := by
  have hqueued : s'.queued line = s.queued line := by rw [queued, h.lines, queued]
  refine ⟨h.nextId, fun htied => htied.later h.nextId ?_ ?_ ?_,
    fun hleads => hleads.later h.nextId h.boxes.ge ?_ (fun f hf => .inl ?_) ?_⟩
  · rw [h.links]
    exact htied.link
  · rw [h.lines]
    exact htied.isOpen
  · rw [hqueued]
    exact fun n hn => .inl hn
  · rw [hqueued]
    exact fun _ => h.holds
  · rw [mem_forwarders, h.links, h.strays, ← mem_forwarders] at hf
    exact hf
  · rw [h.links]
    exact fun e he hne f hf _ => ⟨e, he, hne, hf⟩

theorem steers_connect (htied : s.Tied conn line) (hne : conn' ≠ conn) :
    Steers conn line s (s.connect conn').2 := by
  have hqueued : (s.connect conn').2.queued line = s.queued line := Inboxes.take_join htied.isOpen
  refine ⟨Nat.le_refl _, fun _ => htied.later (Nat.le_refl _) ?_ ?_ ?_,
    fun hleads => hleads.later (Nat.le_refl _) (Nat.le_refl _) ?_ (fun f hf => ?_)
      fun e he hneq f hf hfeed => ?_⟩
  · obtain ⟨fs, hlink⟩ := htied.link
    refine ⟨fs, ?_⟩
    show Table.get? (s.links.put conn' _) conn = _
    rw [Table.get?_put, if_neg (by simpa using hne)]
    exact hlink
  · exact Inboxes.isOpen_join htied.isOpen
  · rw [hqueued]
    exact fun n hn => .inl hn
  · rw [hqueued]
    exact fun _ hholds => hholds
  · refine (mem_forwarders_connect hf).imp_right ?_
    rintro ⟨i, hfeed⟩ hbox
    rw [hfeed] at hbox
    cases hbox
  · rcases Table.mem_put he with rfl | he
    · rw [List.mem_singleton] at hf
      rw [hf] at hfeed
      cases hfeed
    · exact ⟨e, he, hneq, hf⟩

theorem steers_disconnect (hne : conn' ≠ conn) : Steers conn line s (s.disconnect conn') := by
  have hcloses := closes_disconnect s conn'
  have hqueued : (s.disconnect conn').queued line = s.queued line := by
    rw [queued, hcloses.lines, queued]
  refine ⟨hcloses.nextId.ge, fun htied => htied.later hcloses.nextId.ge ?_ ?_ ?_,
    fun hleads => hleads.later hcloses.nextId.ge hcloses.boxes.ge (fun _ => ?_)
      (fun f hf => .inl ?_) fun e he hneq f hf _ => ?_⟩
  · obtain ⟨fs, hlink⟩ := htied.link
    refine ⟨fs, ?_⟩
    rw [erase_disconnect, Table.get?_erase, if_neg (by simpa using hne)]
    exact hlink
  · rw [hcloses.lines]
    exact htied.isOpen
  · rw [hqueued]
    exact fun n hn => .inl hn
  · rw [hqueued]
    refine hcloses.holds fun f hf => ?_
    obtain ⟨link, hlink, hf⟩ := mem_ownForwarders hf
    exact hleads.own _ (mem_links_of_get? hlink) hne f hf
  · exact mem_forwarders_disconnect hf
  · rw [erase_disconnect] at he
    exact ⟨e, (List.mem_filter.mp he).1, hneq, hf⟩

theorem Gives.get?_links (h : s.Gives s' conn d) (conn' : Nat) {l : Nat} :
    (∃ fs, s.links.get? conn' = some ⟨l, fs⟩) → ∃ fs, s'.links.get? conn' = some ⟨l, fs⟩ := by
  rintro ⟨fs, hlink⟩
  rcases h.links with ⟨-, hlinks⟩ | ⟨link, hget, hlinks, -⟩
  · exact ⟨fs, by rw [hlinks, hlink]⟩
  · rw [hlinks, Table.get?_put]
    split
    · rename_i hsame
      rw [← eq_of_beq hsame, hget] at hlink
      cases hlink
      exact ⟨_, rfl⟩
    · exact ⟨fs, hlink⟩

theorem steers_gives (hgives : s.Gives s' conn' d) : Steers conn line s s' := by
  have hnext : s.station.registry.nextId ≤ s'.station.registry.nextId := by
    rw [hgives.nextId]
    exact Nat.le_succ _
  have hqueued : s'.queued line = s.queued line := by rw [queued, hgives.lines, queued]
  refine ⟨hnext, fun htied => htied.later hnext (hgives.get?_links conn htied.link) ?_ ?_,
    fun {id box d'} hleads => hleads.later hnext (hgives.boxes ▸ Nat.le_succ _) (fun _ => ?_)
      (fun f hf => ?_) fun e he hneq f hf hfeed => ?_⟩
  · rw [hgives.lines]
    exact htied.isOpen
  · rw [hqueued]
    exact fun n hn => .inl hn
  · rw [hqueued]
    exact hgives.holds (Nat.ne_of_lt hleads.numbered) hleads.made
  · refine (hgives.mem_forwarders hf).imp_right ?_
    rintro ⟨link, -, rfl⟩ hbox
    cases hbox
    exact absurd hleads.made (Nat.lt_irrefl _)
  · rcases hgives.links with ⟨-, hlinks⟩ | ⟨link, hget, hlinks, -⟩
    · rw [hlinks] at he
      exact ⟨e, he, hneq, hf⟩
    · rw [hlinks] at he
      rcases Table.mem_put he with rfl | he
      · rcases List.mem_append.mp hf with hf | hf
        · exact ⟨_, mem_links_of_get? hget, hneq, hf⟩
        · rw [List.mem_singleton.mp hf] at hfeed
          cases hfeed
          exact absurd hleads.made (Nat.lt_irrefl _)
      · exact ⟨e, he, hneq, hf⟩

theorem steers_handle (hw : s.Wired) (conn' : Nat) (r : Wire.Request) :
    Steers conn line s (s.handle conn' r).2 := by
  by_cases hcreate : ∃ config, r = .createSession config
  · obtain ⟨config, rfl⟩ := hcreate
    rcases hw.createSession_cases conn' config with ⟨-, halike⟩ | ⟨d, -, hgives⟩
    · exact steers_of_maintains halike.maintains
    · exact steers_gives hgives
  · exact steers_of_maintains
      (alike_handle s conn' fun config hr => hcreate ⟨config, hr⟩).maintains

theorem steers_modify {i : Nat} (hne : i ≠ line) (g : Inbox Notification → Inbox Notification) :
    Steers conn line s { s with lines := s.lines.modify i g } := by
  have hqueued : queued { s with lines := s.lines.modify i g } line = s.queued line :=
    Inboxes.queued_modify_of_ne hne
  refine ⟨Nat.le_refl _, fun htied => htied.later (Nat.le_refl _) htied.link ?_ ?_,
    fun hleads => hleads.later (Nat.le_refl _) (Nat.le_refl _) ?_ (fun f hf => .inl hf)
      fun e he hneq f hf _ => ⟨e, he, hneq, hf⟩⟩
  · exact (Inboxes.isOpen_modify_of_ne hne).trans htied.isOpen
  · rw [hqueued]
    exact fun n hn => .inl hn
  · rw [hqueued]
    exact fun _ hholds => hholds

/-- The number of a session that is not too large is told as it is. -/
theorem ofNat_ne {limit i : Nat} (hlimit : limit ≤ UInt64.size) (hid : id < limit) (hi : i < limit)
    (hne : i ≠ id) : UInt64.ofNat i ≠ UInt64.ofNat id := by
  intro hsame
  have hnat := congrArg UInt64.toNat hsame
  rw [UInt64.toNat_ofNat_of_lt' (Nat.lt_of_lt_of_le hi hlimit),
    UInt64.toNat_ofNat_of_lt' (Nat.lt_of_lt_of_le hid hlimit)] at hnat
  exact hne hnat

theorem Wired.session_lt (h : s.Wired) {feed : Feed} {n : Notification} {rest : List Notification}
    (hfed : s.fed feed = n :: rest) {i : UInt64} (hi : n.session? = some i) :
    i.toNat < s.station.registry.nextId := by
  cases feed with
  | session box =>
      obtain ⟨m, ms, hwaiting, rfl, -⟩ := List.map_eq_cons_iff.mp hfed
      have hwaiting : s.station.board.board.waiting box = m :: ms := hwaiting
      have hm : m ∈ s.station.board.board.waiting box := hwaiting ▸ List.mem_cons_self
      rw [session?_ofNotice] at hi
      cases hi
      rw [UInt64.toNat_ofNat']
      exact Nat.lt_of_le_of_lt (Nat.mod_le _ _) (h.dated box m hm)
  | parameters box =>
      obtain ⟨c, cs, -, rfl, -⟩ := List.map_eq_cons_iff.mp hfed
      cases hi

theorem queued_pass {n : Notification} (hopen : s.lines.isOpen f.line) (line : Nat) :
    (s.lines.sendTo f.line n).queued line =
      s.queued line ++ (if f.line = line then [n] else []) := by
  split
  · rename_i hsame
    rw [hsame] at hopen ⊢
    exact Inboxes.queued_sendTo hopen
  · rename_i hne
    rw [List.append_nil]
    exact Inboxes.queued_modify_of_ne hne

/-- The backlog of a session when the first that waits in a feed has been passed on. -/
theorem Leads.holds_pass (h : s.Leads conn line id box d) (hw : s.Wired) (hf : f ∈ s.forwarders)
    (hsize : s.station.registry.nextId ≤ UInt64.size) {n : Notification}
    {rest : List Notification} (hfed : s.fed f.feed = n :: rest) :
    (s.dropFirst f.feed).station.board.Holds id box (Wire.leads (.ofNat id) d
      (s.queued line ++ if f.line = line then [n] else [])) := by
  have hholds := h.holds hsize
  have hother (hn : n.session? ≠ some (.ofNat id)) :
      Wire.leads (.ofNat id) d (s.queued line ++ if f.line = line then [n] else []) =
        Wire.leads (.ofNat id) d (s.queued line) := by
    rw [Wire.leads_append]
    split
    · exact Wire.Notification.lead_of_other hn
    · rfl
  obtain ⟨feed, l⟩ := f
  cases feed with
  | parameters i =>
      obtain ⟨c, cs, -, rfl, -⟩ := List.map_eq_cons_iff.mp hfed
      rw [hother nofun]
      exact hholds
  | session i =>
      obtain ⟨m, ms, hwaiting, rfl, -⟩ := List.map_eq_cons_iff.mp hfed
      have hwaiting : s.station.board.board.waiting i = m :: ms := hwaiting
      have hm : m ∈ s.station.board.board.waiting i := hwaiting ▸ List.mem_cons_self
      intro e hentry
      have htracks := hholds e hentry
      by_cases hbox : i = box
      · subst hbox
        rw [if_pos (h.only _ hf rfl), Wire.leads_append]
        exact htracks.dropFirst hwaiting
      · have hne : m.sessionId ≠ id := fun hsame => hbox (htracks.alone i m hm hsame)
        rw [hother]
        · exact htracks.dropFirst_other hbox
        · rw [session?_ofNotice]
          exact fun hsame => ofNat_ne hsize h.numbered (hw.dated i m hm) hne (Option.some.inj hsame)

theorem steers_pass (hw : s.Wired) (htied : s.Tied conn line) (hf : f ∈ s.forwarders) :
    Steers conn line s (s.pass f) := by
  cases hfed : s.fed f.feed with
  | nil =>
      rw [pass_of_fed_nil hfed]
      exact .refl s
  | cons n rest =>
      by_cases hopen : s.lines.isOpen f.line
      · have hsteady := s.steady_dropFirst f.feed
        have hnext := hsteady.registry.nextId
        have hqueued := queued_pass (n := n) hopen line
        rw [pass_of_isOpen hfed hopen]
        refine ⟨hnext.ge, fun _ => htied.later hnext.ge ?_ ?_ fun m hm => ?_,
          fun hleads => hleads.later hnext.ge hsteady.boxes.ge (fun hsize _ => ?_)
            (fun g hg => .inl ?_) fun e he hne g hg _ => ⟨e, ?_, hne, hg⟩⟩
        · exact s.links_dropFirst f.feed ▸ htied.link
        · exact (Inboxes.isOpen_sendTo _ _ _ _).trans htied.isOpen
        · rw [queued, hqueued, List.mem_append] at hm
          refine hm.imp_right fun hm i hi => ?_
          split at hm
          · rw [List.mem_singleton.mp hm] at hi
            exact hnext ▸ hw.session_lt hfed hi
          · cases hm
        · rw [queued, hqueued]
          exact hleads.holds_pass hw hf hsize hfed
        · exact s.forwarders_dropFirst f.feed ▸ hg
        · exact s.links_dropFirst f.feed ▸ he
      · have hcloses := closes_closeFeed s f
        have hline : f.line ≠ line := fun hsame => hopen (hsame ▸ htied.isOpen)
        have hqueued : (s.closeFeed f.feed).queued line = s.queued line := by
          rw [queued, hcloses.lines, queued]
        rw [pass_of_not_isOpen hfed hopen]
        refine ⟨hcloses.nextId.ge, fun _ => htied.later hcloses.nextId.ge ?_ ?_ ?_,
          fun hleads => hleads.later hcloses.nextId.ge hcloses.boxes.ge (fun _ => ?_)
            (fun g hg => .inl ?_) fun e he hne g hg _ => ⟨e, ?_, hne, hg⟩⟩
        · exact s.links_closeFeed f.feed ▸ htied.link
        · rw [hcloses.lines]
          exact htied.isOpen
        · rw [hqueued]
          exact fun n hn => .inl hn
        · rw [hqueued]
          refine hcloses.holds fun g hg hfeed => hline ?_
          rw [List.mem_singleton.mp hg] at hfeed
          exact hleads.only f hf hfeed
        · exact s.forwarders_closeFeed f.feed ▸ hg
        · exact s.links_closeFeed f.feed ▸ he

theorem steers_step (hw : s.Wired) (htied : s.Tied conn line) {t : ServerStep}
    (ht : t.spares conn line) : Steers conn line s (s.step t) := by
  cases t with
  | connect conn' => exact steers_connect htied (by simpa [ServerStep.spares] using ht)
  | disconnect conn' => exact steers_disconnect (by simpa [ServerStep.spares] using ht)
  | request conn' r =>
      show Steers conn line s (if s.isLinked conn' then (s.handle conn' r).2 else s)
      split
      · exact steers_handle hw conn' r
      · exact .refl s
  | devices t =>
      cases t <;> exact steers_of_maintains (Alike.maintains ⟨rfl, rfl, rfl, rfl, Nat.le_refl _⟩)
  | change => exact steers_of_maintains hw.accounted.maintains_change
  | event => exact steers_of_maintains hw.accounted.maintains_event
  | share id m =>
      exact steers_of_maintains (Alike.maintains ⟨rfl, rfl, rfl, rfl, Nat.le_refl _⟩)
  | forward => cases ht
  | readLine i | closeLine i => exact steers_modify (by simpa [ServerStep.spares] using ht) _

theorem Tied.pop (h : s.Tied conn line) :
    Tied { s with lines := s.lines.dropFirst line } conn line := by
  refine h.later (Nat.le_refl _) h.link ?_ fun n hn => .inl ?_
  · exact (Inboxes.isOpen_dropFirst _ _ _).trans h.isOpen
  · rw [queued, Inboxes.queued_dropFirst] at hn
    exact List.mem_of_mem_tail hn

theorem Leads.pop (h : s.Leads conn line id box d) {n : Notification} {rest : List Notification}
    (hqueued : s.queued line = n :: rest) :
    Leads { s with lines := s.lines.dropFirst line } conn line id box (n.lead (.ofNat id) d) := by
  have hrest : queued { s with lines := s.lines.dropFirst line } line = rest := by
    rw [queued, Inboxes.queued_dropFirst]
    exact congrArg List.tail hqueued
  refine ⟨h.numbered, h.made, fun hsize => ?_, h.only, h.own⟩
  have hholds := h.holds hsize
  rw [hqueued] at hholds
  rw [hrest]
  exact hholds

theorem tied_connect (s : Server) (conn : Nat) :
    (s.connect conn).2.Tied conn (s.connect conn).1 := by
  obtain ⟨hopen, hnone⟩ := s.lines.take_join_self
  refine ⟨⟨_, (Table.get?_put _ _ _ _).trans (if_pos (beq_self_eq_true conn))⟩, hopen,
    fun n hn => ?_⟩
  have hqueued : (s.connect conn).2.queued (s.connect conn).1 = [] := hnone
  rw [hqueued] at hn
  cases hn

/-- The owner of a new session is led from the device that the session is routed to at first. -/
theorem leads_gives (hw : s.Wired) (htied : s.Tied conn line) (hgives : s.Gives s' conn d) :
    s'.Leads conn line s.station.registry.nextId s.station.board.board.boxes.length d := by
  obtain ⟨fs, hlink⟩ := htied.link
  rcases hgives.links with ⟨hnone, -⟩ | ⟨link, hget, hlinks, hholds⟩
  · rw [hlink] at hnone
    cases hnone
  · rw [hlink] at hget
    cases hget
    refine ⟨?_, ?_, fun hsize => ?_, fun f hf hfeed => ?_, fun e he hne f hf hfeed => ?_⟩
    · rw [hgives.nextId]
      exact Nat.lt_succ_self _
    · rw [hgives.boxes]
      exact Nat.lt_succ_self _
    · have hqueued : s'.queued line = s.queued line := by rw [queued, hgives.lines, queued]
      rw [hgives.nextId] at hsize
      rw [hqueued, Wire.leads_of_others]
      · exact hholds
      · intro n hn hid
        have hlt := htied.dated n hn _ hid
        rw [UInt64.toNat_ofNat_of_lt' hsize] at hlt
        exact Nat.lt_irrefl _ hlt
    · rcases hgives.mem_forwarders hf with hf | ⟨link, hget, rfl⟩
      · exact absurd (hw.made f hf _ hfeed) (Nat.lt_irrefl _)
      · rw [hlink] at hget
        cases hget
        rfl
    · rw [hlinks] at he
      rcases Table.mem_put he with rfl | he
      · exact hne rfl
      · exact absurd (hw.made f (mem_forwarders.mpr (.inr ⟨e, he, hf⟩)) _ hfeed) (Nat.lt_irrefl _)

/-- A message is a request that is handled, or is answered at once. -/
theorem dispatch_cases (s : Server) (conn : Nat) (message : List UInt8) :
    (∃ e, Wire.decode (Wire.Request.readFor s.token) message = .error e ∧
      s.dispatch conn message = (Wire.Response.encodeStatus e.toStatus, s)) ∨
    ∃ r, Wire.decode (Wire.Request.readFor s.token) message = .ok r ∧
      s.dispatch conn message =
        (Wire.encodeOutcome (s.handle conn r).1, (s.handle conn r).2) := by
  unfold dispatch Wire.dispatch
  cases Wire.decode (Wire.Request.readFor s.token) message with
  | error e => exact .inl ⟨e, rfl, rfl⟩
  | ok r => exact .inr ⟨r, rfl, rfl⟩

theorem Wired.dispatch (h : s.Wired) (htied : s.Tied conn line) (message : List UInt8) :
    (s.dispatch conn message).2.Wired ∧ Steers conn line s (s.dispatch conn message).2 := by
  rcases s.dispatch_cases conn message with ⟨e, -, hrefused⟩ | ⟨r, -, hhandled⟩
  · rw [hrefused]
    exact ⟨h, .refl s⟩
  · obtain ⟨fs, hlink⟩ := htied.link
    have hlinked : s.links.has conn := (Table.has_iff _ _).mpr ⟨_, hlink⟩
    rw [hhandled]
    exact ⟨h.request hlinked r, steers_handle h conn r⟩

theorem Accounted.dispatch (h : s.Accounted) (hlinked : s.links.has conn)
    (message : List UInt8) : s.Keeps (s.dispatch conn message).2 := by
  rcases s.dispatch_cases conn message with ⟨e, -, hrefused⟩ | ⟨r, -, hhandled⟩
  · rw [hrefused]
    exact h.steady (.refl s)
  · rw [hhandled]
    exact h.request hlinked r

/-- If the reply to a request to make a session tells of one, the session was made. -/
theorem Wired.gives_of_reply (h : s.Wired) {config : StreamConfig} {token : String} {n : UInt64}
    (hlen : (s.dispatch conn ((Wire.Request.createSession config).encode token)).1.length ≤
      Wire.maxFrame)
    (hreply : Wire.decode (Wire.Response.readFor .createSession)
      (s.dispatch conn ((Wire.Request.createSession config).encode token)).1 = .ok (.session n d)) :
    n = .ofNat s.station.registry.nextId ∧
      s.Gives (s.dispatch conn ((Wire.Request.createSession config).encode token)).2 conn d := by
  rcases s.dispatch_cases conn ((Wire.Request.createSession config).encode token) with
    ⟨e, hdecode, hrefused⟩ | ⟨r, hdecode, hhandled⟩
  · rw [hrefused] at hreply
    have he := (Wire.Request.declines_readFor s.token).decode hdecode
    rw [Wire.Response.decode_encodeStatus he] at hreply
    cases hreply
  · obtain ⟨config', rfl⟩ : ∃ config', r = .createSession config' := by
      have hkind := Wire.Request.kind_of_decode hdecode
      cases r with
      | createSession config' => exact ⟨config', rfl⟩
      | _ => cases hkind
    have houtcome := s.isOutcome_handle conn (.createSession config')
    rw [hhandled] at hreply hlen ⊢
    rcases h.createSession_cases conn config' with ⟨⟨e, hfailed⟩, -⟩ | ⟨d', hmade, hgives⟩
    · have hfailed : (s.handle conn (.createSession config')).1 = .error e := hfailed
      rw [hfailed] at houtcome hreply
      rw [Wire.encodeOutcome, Wire.Response.decode_encodeStatus houtcome] at hreply
      cases hreply
    · have hmade : (s.handle conn (.createSession config')).1 =
          .ok (.session (.ofNat s.station.registry.nextId) d') := hmade
      rw [hmade] at hlen hreply
      obtain ⟨rfl, rfl⟩ := Wire.eq_of_decode_session hlen hreply
      exact ⟨rfl, hgives⟩

end Server
end Patchbay
