import Patchbay.Proofs.Route.Backlogs
import Patchbay.Proofs.Server.Steady

/-!
# Forwarding

A forwarder takes what waits in a feed to a line, one notification after the other. Others may get
in between; when none does, all that waits has been forwarded at once.
-/
namespace Patchbay.Server
open Wire (Notification)

variable {s : Server} {f : Forwarder}

/-- What waits on a line. -/
def queued (s : Server) (line : Nat) : List Notification :=
  s.lines.queued line

/-- What waits in a feed. -/
def fed (s : Server) (feed : Feed) : List Notification :=
  (s.takeFeed feed).1

/-- The first that waits in a feed is read. -/
def dropFirst (s : Server) (feed : Feed) : Server :=
  let st := s.station
  match feed with
  | .session box =>
    { s with station := { st with board :=
      { st.board with board := st.board.board.dropFirst box } } }
  | .parameters box =>
    { s with station := { st with parameters :=
      { st.parameters with listeners := st.parameters.listeners.dropFirst box } } }

/-- Forwards the first that waits in a feed. If nobody reads the line any more the subscription
ends. -/
def pass (s : Server) (f : Forwarder) : Server :=
  match s.fed f.feed with
  | [] => s
  | n :: _ =>
    let s := s.dropFirst f.feed
    if s.lines.isOpen f.line then { s with lines := s.lines.sendTo f.line n }
    else s.closeFeed f.feed

theorem lines_takeFeed (s : Server) (feed : Feed) : (s.takeFeed feed).2.lines = s.lines := by
  cases feed <;> rfl

theorem lines_dropFirst (s : Server) (feed : Feed) : (s.dropFirst feed).lines = s.lines := by
  cases feed <;> rfl

theorem links_dropFirst (s : Server) (feed : Feed) : (s.dropFirst feed).links = s.links := by
  cases feed <;> rfl

theorem links_closeFeed (s : Server) (feed : Feed) : (s.closeFeed feed).links = s.links := by
  cases feed <;> rfl

theorem forwarders_dropFirst (s : Server) (feed : Feed) :
    (s.dropFirst feed).forwarders = s.forwarders := by
  cases feed <;> rfl

theorem forwarders_closeFeed (s : Server) (feed : Feed) :
    (s.closeFeed feed).forwarders = s.forwarders := by
  cases feed <;> rfl

theorem takeFeed_dropFirst (s : Server) (feed : Feed) (lines : Inboxes Notification) :
    takeFeed { s.dropFirst feed with lines := lines } feed =
      ((s.fed feed).tail, { (s.takeFeed feed).2 with lines := lines }) := by
  cases feed with
  | session box =>
      have htake := s.station.board.board.boxes.take_dropFirst box
      simp only [takeFeed, dropFirst, fed, NoticeBoard.take, NoticeBoard.dropFirst, htake,
        List.map_tail]
      rfl
  | parameters box =>
      have htake := s.station.parameters.listeners.take_dropFirst box
      simp only [takeFeed, dropFirst, fed, Parameters.take, htake, List.map_tail]
      rfl

theorem takeFeed_of_fed_nil {feed : Feed} (h : s.fed feed = []) : s.takeFeed feed = ([], s) := by
  cases feed with
  | session box =>
      have hnil : s.station.board.board.boxes.queued box = [] := List.map_eq_nil_iff.mp h
      have htake := Inboxes.take_of_queued_nil hnil
      simp only [takeFeed, NoticeBoard.take, htake, List.map_nil]
  | parameters box =>
      have hnil : s.station.parameters.listeners.queued box = [] := List.map_eq_nil_iff.mp h
      have htake := Inboxes.take_of_queued_nil hnil
      simp only [takeFeed, Parameters.take, htake, List.map_nil]

theorem forward_of_isOpen (h : s.lines.isOpen f.line) :
    s.forward f = { (s.takeFeed f.feed).2 with
      lines := (s.fed f.feed).foldl (fun lines n => lines.sendTo f.line n) s.lines } := by
  have hlines := s.lines_takeFeed f.feed
  unfold forward fed
  generalize s.takeFeed f.feed = p at hlines ⊢
  obtain ⟨notes, s'⟩ := p
  have hlines : s'.lines = s.lines := hlines
  cases notes with
  | nil =>
      show s' = _
      rw [List.foldl_nil, ← hlines]
  | cons n notes =>
      dsimp only
      rw [hlines, if_pos h]

theorem closeFeed_takeFeed (s : Server) (feed : Feed) :
    (s.takeFeed feed).2.closeFeed feed = s.closeFeed feed := by
  cases feed <;>
    simp [closeFeed, takeFeed, NoticeBoard.take, NoticeBoard.close, Parameters.take,
      Parameters.close, Inboxes.take]

theorem closeFeed_dropFirst (s : Server) (feed : Feed) :
    (s.dropFirst feed).closeFeed feed = s.closeFeed feed := by
  cases feed <;>
    simp [closeFeed, dropFirst, NoticeBoard.dropFirst, NoticeBoard.close, Parameters.close,
      Inboxes.dropFirst]

theorem fed_closeFeed (s : Server) (feed : Feed) : (s.closeFeed feed).fed feed = [] := by
  cases feed with
  | session box => exact congrArg (List.map _) (Inboxes.queued_close _ box)
  | parameters box => exact congrArg (List.map _) (Inboxes.queued_close _ box)

theorem pass_of_fed_nil (h : s.fed f.feed = []) : s.pass f = s := by
  unfold pass
  rw [h]

theorem pass_of_isOpen {n : Notification} {rest : List Notification}
    (hfed : s.fed f.feed = n :: rest) (hopen : s.lines.isOpen f.line) :
    s.pass f = { s.dropFirst f.feed with lines := s.lines.sendTo f.line n } := by
  unfold pass
  rw [hfed]
  dsimp only
  rw [lines_dropFirst, if_pos hopen]

theorem pass_of_not_isOpen {n : Notification} {rest : List Notification}
    (hfed : s.fed f.feed = n :: rest) (hclosed : ¬ s.lines.isOpen f.line) :
    s.pass f = s.closeFeed f.feed := by
  unfold pass
  rw [hfed]
  dsimp only
  rw [lines_dropFirst, if_neg hclosed, closeFeed_dropFirst]

theorem forward_eq_iterate (s : Server) (f : Forwarder) :
    s.forward f = (pass · f)^[(s.fed f.feed).length] s := by
  induction hfed : s.fed f.feed generalizing s with
  | nil =>
      unfold forward
      rw [takeFeed_of_fed_nil hfed]
      rfl
  | cons n rest ih =>
      rw [List.length_cons, Function.iterate_succ_apply]
      by_cases hopen : s.lines.isOpen f.line
      · have hpass := pass_of_isOpen hfed hopen
        have htake := takeFeed_dropFirst s f.feed (s.lines.sendTo f.line n)
        rw [← hpass, hfed] at htake
        have hrest : (s.pass f).fed f.feed = rest := congrArg Prod.fst htake
        have hopen' : (s.pass f).lines.isOpen f.line := by
          rw [hpass]
          exact (Inboxes.isOpen_sendTo _ _ _ _).trans hopen
        rw [← ih _ hrest, forward_of_isOpen hopen, forward_of_isOpen hopen', hrest, htake, hfed,
          hpass, List.foldl_cons]
      · have hforward : s.forward f = s.closeFeed f.feed := by
          have hlines := s.lines_takeFeed f.feed
          have htake : s.takeFeed f.feed = (n :: rest, (s.takeFeed f.feed).2) := by
            rw [← hfed]
            rfl
          unfold forward
          rw [htake]
          dsimp only
          rw [hlines, if_neg hopen, closeFeed_takeFeed]
        rw [pass_of_not_isOpen hfed hopen, hforward]
        exact (Function.iterate_fixed (pass_of_fed_nil (s.fed_closeFeed f.feed)) _).symm

theorem steady_dropFirst (s : Server) (feed : Feed) : s.Steady (s.dropFirst feed) := by
  cases feed with
  | session box => exact ⟨.refl _, rfl, rfl, List.length_modify _ _ _, rfl, fun _ => rfl⟩
  | parameters box => exact ⟨.refl _, rfl, rfl, rfl, rfl, fun _ => rfl⟩

theorem steady_pass (s : Server) (f : Forwarder) : s.Steady (s.pass f) := by
  cases hfed : s.fed f.feed with
  | nil =>
      rw [pass_of_fed_nil hfed]
      exact .refl s
  | cons n rest =>
      by_cases hopen : s.lines.isOpen f.line
      · rw [pass_of_isOpen hfed hopen]
        exact (s.steady_dropFirst f.feed).trans (steady_withLines _ _)
      · rw [pass_of_not_isOpen hfed hopen]
        exact s.steady_closeFeed f.feed

end Patchbay.Server
