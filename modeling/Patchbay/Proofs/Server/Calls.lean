import Patchbay.Proofs.Server.Conversations
import Patchbay.Proofs.Server.Outcomes
import Patchbay.Proofs.Tables
import Patchbay.Proofs.Wire.Dispatch
import Patchbay.Server.Exchange

/-!
# Calls over the wire

A call answers what the server's handler answers and leaves the server as the handler leaves it,
if the client can read what was sent to it before. A notification that is too long to be read
spoils the next call.
-/
namespace Patchbay
open Wire (Request Response framed replyMessage maxFrame TextFits IsOutcome)

variable {s : Server} {r : Request}

/-- The dispatcher hands a request on that is written with the token. -/
theorem Server.dispatch_encode (s : Server) (conn : Nat) (htoken : TextFits s.token)
    (hr : r.Fits) : s.dispatch conn (r.encode s.token) =
      (Wire.encodeOutcome (s.handle conn r).1, (s.handle conn r).2) := by
  have hspelled : r.SpelledBy s.token (r.encode s.token) :=
    ⟨hr, 1, by decide, (Request.encodeWith_one r s.token).symm⟩
  exact Wire.dispatch_of_spelledBy htoken hspelled

theorem length_encode_le {token : String} (htoken : TextFits token) (hr : r.Fits) :
    (r.encode token).length ≤ maxFrame := by
  have htexts : ∀ t ∈ r.texts, (Wire.writeText t).length ≤ Wire.maxText + 4 :=
    fun t ht => Wire.length_writeText_le (hr t ht)
  have hpayload : r.payload.length ≤ 4 * (Wire.maxText + 4) := by
    cases r with
    | createSession config =>
        obtain ⟨intent, info, uid, total, span⟩ := config
        cases intent <;> simp [Request.payload, Wire.writeConfig, Wire.writeIntent, Wire.maxText]
    | parameter | setParameter | remoteParameter | setRemoteParameter =>
        simp [Request.payload, Request.texts] at htexts ⊢
        omega
    | _ => simp [Request.payload, Wire.writeFlag, Wire.writeSingle, Wire.maxText]
  have htoken := Wire.length_writeText_le htoken
  simp only [Request.encode, List.length_append, Wire.length_write32, Wire.maxText, maxFrame] at *
  omega

section Answers
variable {conn : Nat} (hanswer : ∀ response, (s.handle conn r).1 = .ok response →
  response.Fits ∧ (replyMessage response.encode).length ≤ maxFrame)
include hanswer

theorem Server.length_reply_le :
    (replyMessage (Wire.encodeOutcome (s.handle conn r).1)).length ≤ maxFrame := by
  cases ho : (s.handle conn r).1 with
  | ok response => exact (hanswer response ho).2
  | error status =>
      rw [Wire.encodeOutcome, replyMessage, List.length_append, Wire.length_write32,
        Wire.length_encodeStatus]
      decide

theorem Server.fits_of_answer (response : Response) (ho : (s.handle conn r).1 = .ok response) :
    response.Fits ∧ response.payload.length < UInt32.size := by
  have hframe := (hanswer response ho).2
  refine ⟨(hanswer response ho).1, ?_⟩
  simp only [replyMessage, Response.encode, List.length_append, maxFrame, UInt32.size] at *
  omega

end Answers

namespace Circuit

/-- Between two calls: the server waits for the client, and all that the client has still to read
are the notifications `unread`. -/
structure Rests (c : Circuit) (unread : List Wire.Notification) : Prop where
  conversation : c.conversation = { conn := c.conversation.conn, line := c.conversation.line }
  outgoing : c.client.outgoing = []
  incoming : c.client.incoming = unread.flatMap fun n => framed n.encode

variable {c : Circuit} {unread : List Wire.Notification}

/-- The reply to a request is read behind the notifications that were there before it. -/
theorem receive_of_notes (client : Wire.Client) {kind : Wire.RequestKind}
    {outcome : Except Status Response} {rest : List UInt8} (hunread : ∀ n ∈ unread, n.Fits)
    (houtcome : IsOutcome kind outcome)
    (hfits : ∀ response, outcome = .ok response →
      response.Fits ∧ response.payload.length < UInt32.size)
    (hlen : (replyMessage (Wire.encodeOutcome outcome)).length ≤ maxFrame)
    (hincoming : client.incoming = unread.flatMap (fun n => framed n.encode) ++
      (framed (replyMessage (Wire.encodeOutcome outcome)) ++ rest)) :
    client.receive kind = (outcome.mapError .status,
      { client with incoming := rest, queue := client.queue ++ unread }) := by
  unfold Wire.Client.receive
  rw [Wire.Client.nextReply_of_notes hunread hlen hincoming]
  simp only [Wire.decode_encodeOutcome houtcome hfits]

theorem call_of_rests (broken : String) (h : c.Rests unread) (hunread : ∀ n ∈ unread, n.Fits)
    (htoken : c.client.token = s.token) (hs : TextFits s.token) (hr : r.Fits)
    (hanswer : ∀ response, (s.handle c.conversation.conn r).1 = .ok response →
      response.Fits ∧ (replyMessage response.encode).length ≤ maxFrame)
    (hline : ∀ n ∈ (s.takeLine c.conversation.line).1, n.encode.length ≤ maxFrame) :
    c.call broken s r =
      ((s.handle c.conversation.conn r).1.mapError .status,
        ((s.handle c.conversation.conn r).2.takeLine c.conversation.line).2,
        { conversation := c.conversation
          client := { c.client with
            incoming := (s.takeLine c.conversation.line).1.flatMap fun n => framed n.encode
            queue := c.client.queue ++ unread } }) := by
  obtain ⟨⟨conn, line, incoming, isEnded, replies, pending, sent, phase⟩, client⟩ := c
  have hconversation := h.conversation
  simp only [Conversation.mk.injEq, true_and] at hconversation
  obtain ⟨rfl, rfl, rfl, rfl, rfl, rfl⟩ := hconversation
  have houtcome := Server.isOutcome_handle s conn r
  have hlen := length_encode_le hs hr
  have hreply := Server.length_reply_le hanswer
  have hfits := Server.fits_of_answer hanswer
  have hsend : client.send r =
      (.ok (), { client with outgoing := framed (r.encode s.token) }) := by
    have hout : client.outgoing = [] := h.outgoing
    have htok : client.token = s.token := htoken
    unfold Wire.Client.send
    rw [htok, Wire.frame_eq_ok hlen]
    simp only [hout, List.nil_append]
  have hsettle := Conversation.settle_of_request line [] hlen
    (s.dispatch_encode conn hs hr) (s.lines_handle conn r) hreply hline
  have hreceive := receive_of_notes { client with
      outgoing := []
      incoming := client.incoming ++ (framed (replyMessage (Wire.encodeOutcome (s.handle conn r).1))
        ++ (s.takeLine line).1.flatMap fun n => framed n.encode) }
    hunread houtcome hfits hreply (by rw [← h.incoming])
  simp only [List.nil_append] at hsettle
  unfold call
  rw [hsend]
  simp only [Conversation.isOver, settle, Conversation.receive, List.nil_append, hsettle]
  rw [hreceive]
  have hout : client.outgoing = [] := h.outgoing
  simp only [hout]
  rfl

end Circuit

/-- A client is connected, and then settings are read anew that give a parameter the text
`value`. -/
def readAnew (value : String) : Exchange :=
  let x := ({ server := {} } : Exchange).connect 1 "audiod.IAudioProcess"
  let news : SettingsDiff := ⟨none, [], [("route", value)], []⟩
  { x with server := { x.server with station := x.server.station.reload news {} } }

/-- The word that the client is sent of it. -/
def newsOf (value : String) : Wire.Notification := .parameter ⟨none, "route", "", value⟩

theorem length_encode_newsOf (value : String) :
    (newsOf value).encode.length = (Utf8.encode value).length + 30 := by
  have hempty : (Utf8.encode "").length = 0 := by decide
  have hroute : (Utf8.encode "route").length = 5 := by decide
  simp [newsOf, Wire.Notification.encode, Wire.Notification.payload, Wire.writeText,
    Wire.writeFlag, hempty, hroute]
  omega

theorem lines_forwardAll_readAnew (value : String) :
    (readAnew value).server.forwardAll.lines = [⟨[newsOf value], true⟩] := by
  simp [readAnew, newsOf, Exchange.connect, Conversation.start, Server.connect, Inboxes.join,
    Parameters.listen, Station.reload, Parameters.apply, Parameters.set, Inboxes.sendAll,
    Inbox.send, Server.forwardAll, Server.forwarders, Server.forward, Server.takeFeed,
    Parameters.take, Inboxes.take, Inboxes.sendTo, Inboxes.isOpen, Table.put, Table.has,
    Table.get?, Table.values, Table.modify, Table.mapValues]

theorem deliver_readAnew {value : String} (h : (newsOf value).encode.length ≤ maxFrame) :
    (readAnew value).deliver.server = ((readAnew value).server.forwardAll.takeLine 0).2 ∧
    (readAnew value).deliver.circuits.get? 1 = some {
      conversation := { conn := 1, line := 0 }
      client := {
        token := "audiod.IAudioProcess"
        incoming := framed (newsOf value).encode } } := by
  have hlines := lines_forwardAll_readAnew value
  have htake : ((readAnew value).server.forwardAll.takeLine 0).1 = [newsOf value] := by
    rw [Server.takeLine, hlines]
    rfl
  have hsettle := Conversation.settle_of_notes (s := (readAnew value).server.forwardAll) 1 0 []
    (by simpa [htake] using h)
  have hcircuits : (readAnew value).circuits = ⟨[(1, {
      conversation := { conn := 1, line := 0 }
      client := { token := "audiod.IAudioProcess" } })], List.nodup_singleton 1⟩ := rfl
  rw [htake] at hsettle
  simp [Exchange.deliver, Exchange.deliverTo, hcircuits, Circuit.settle, Conversation.receive,
    hsettle, Table.keys, Table.get?, Table.put, Table.has, Table.modify,
    Table.mapValues]

/-- A call fails if the first thing that the client reads is a message it cannot read. -/
theorem Circuit.call_of_unreadable {c : Circuit} {broken : String} {message rest : List UInt8}
    {e : WireError} (hover : c.conversation.isOver = false)
    (hsend : (r.encode c.client.token).length ≤ maxFrame) (hlen : message.length ≤ maxFrame)
    (hmessage : Wire.ServerMessage.decode message = .error e)
    (hincoming : c.client.incoming = framed message ++ rest) :
    (c.call broken s r).1 = .error e := by
  have hreply : ∀ {client : Wire.Client} {rest : List UInt8},
      client.incoming = framed message ++ rest → client.nextReply.1 = .error e := by
    intro client rest hclient
    have hnext : client.nextMessage = (.error e, { client with incoming := rest }) := by
      unfold Wire.Client.nextMessage
      rw [hclient, Wire.nextFrame_framed hlen]
      simp only [hmessage]
    rw [Wire.Client.nextReply]
    split <;> rename_i h <;> rw [hnext] at h <;> cases h
    rfl
  unfold call Wire.Client.send
  rw [Wire.frame_eq_ok hsend]
  simp only [hover, Bool.false_eq_true, if_false, settle]
  unfold Wire.Client.receive
  split <;> rename_i h <;> have herror := congrArg Prod.fst h <;>
    rw [hreply (by rw [hincoming, List.append_assoc])] at herror <;> cases herror
  rfl

/-- A text of `n` bytes. -/
def longText (n : Nat) : String := String.ofList (List.replicate n 'a')

theorem length_encode_longText (n : Nat) : (Utf8.encode (longText n)).length = n := by
  have hsize : Char.utf8Size 'a' = 1 := by decide
  simp [longText, Utf8.encode, hsize]

theorem readText_of_long {t : String} {rest : List UInt8} (hlong : ¬ TextFits t)
    (hlen : (Utf8.encode t).length < UInt32.size) :
    Wire.readText (Wire.writeText t ++ rest) =
      (.error (.malformed s!"string of {UInt32.ofNat (Utf8.encode t).length} bytes"),
        Utf8.encode t ++ rest) := by
  have hcount : (UInt32.ofNat (Utf8.encode t).length).toNat = (Utf8.encode t).length :=
    UInt32.toNat_ofNat_of_lt' hlen
  have hread : Wire.Takes Wire.read32 (Wire.writeText t ++ rest)
      (UInt32.ofNat (Utf8.encode t).length) (Utf8.encode t ++ rest) :=
    Wire.takes_read32.mpr (by rw [Wire.writeText, List.append_assoc])
  have hmax : (Utf8.encode t).length > Wire.maxText := Nat.not_le.mp hlong
  unfold Wire.readText
  rw [hread.bind, hcount, if_pos hmax]
  rfl

theorem decode_newsOf {value : String} (hlong : ¬ TextFits value)
    (hlen : (Utf8.encode value).length < UInt32.size) :
    Wire.ServerMessage.decode (newsOf value).encode =
      .error (.malformed s!"string of {UInt32.ofNat (Utf8.encode value).length} bytes") := by
  have htag : Wire.Takes Wire.read32 (newsOf value).payload 2
      (Wire.writeFlag false ++ (Wire.writeText "" ++ (Wire.writeText "route" ++
        (Wire.writeText "" ++ (Wire.writeText value ++ []))))) :=
    Wire.takes_read32.mpr (by simp [newsOf, Wire.Notification.payload])
  have hflag : ∀ rest, Wire.Takes Wire.readFlag (Wire.writeFlag false ++ rest) false rest :=
    fun rest => Wire.takes_readFlag.mpr ⟨0, rfl, rfl⟩
  have htext : ∀ (t : String) (rest : List UInt8), TextFits t →
      Wire.Takes Wire.readText (Wire.writeText t ++ rest) t rest :=
    fun t rest ht => Wire.takes_readText.mpr ⟨ht, rfl⟩
  have hempty : TextFits "" := by
    unfold TextFits
    decide
  have hroute : TextFits "route" := by
    unfold TextFits
    decide
  have hread : Wire.Notification.read (newsOf value).payload =
      (.error (.malformed s!"string of {UInt32.ofNat (Utf8.encode value).length} bytes"),
        Utf8.encode value ++ []) := by
    unfold Wire.Notification.read
    rw [htag.bind]
    simp only [show ¬ (2 : UInt32) = 0 by decide, show ¬ (2 : UInt32) = 1 by decide, if_false,
      if_true]
    rw [(hflag _).bind, (htext _ _ hempty).bind, (htext _ _ hroute).bind, (htext _ _ hempty).bind,
      Wire.bind_apply, readText_of_long hlong hlen]
  have hkind : Wire.read32.run.run (newsOf value).encode = (.ok 1, (newsOf value).payload) :=
    Wire.takes_read32.mpr rfl
  unfold Wire.ServerMessage.decode
  rw [hkind]
  simp only [Wire.decode_eq_error hread]
  rfl

/-- The client has been sent what it cannot read, and the next call fails on it. -/
theorem call_readAnew {value : String} (hlong : ¬ TextFits value)
    (hlen : (Utf8.encode value).length < UInt32.size)
    (hframe : (newsOf value).encode.length ≤ maxFrame) :
    ((readAnew value).deliver.circuits.get? 1).map (·.client.token) =
      some (readAnew value).deliver.server.token ∧
    (readAnew value).deliver.server.token = "audiod.IAudioProcess" ∧
    ((readAnew value).deliver.server.handle 1 .ringer).1 = .ok (.ringerMode .normal) ∧
    ((readAnew value).deliver.call 1 .ringer).1 =
      .error (.malformed s!"string of {UInt32.ofNat (Utf8.encode value).length} bytes") := by
  obtain ⟨hserver, hcircuit⟩ := deliver_readAnew hframe
  have htoken : (readAnew value).deliver.server.token = "audiod.IAudioProcess" := by
    rw [hserver]
    rfl
  refine ⟨by rw [hcircuit, htoken]; rfl, htoken, ?_, ?_⟩
  · rw [hserver]
    rfl
  · unfold Exchange.call
    rw [hcircuit]
    have hsend : (Request.ringer.encode "audiod.IAudioProcess").length ≤ maxFrame := by decide
    exact Circuit.call_of_unreadable rfl hsend hframe (decode_newsOf hlong hlen)
      (List.append_nil _).symm

/-- A parameter with a text that is too long is sent to the client all the same, and the next
call fails on it, whatever its own answer would be. -/
theorem long_parameter_spoils_call :
    let x := (readAnew (longText 65537)).deliver
    (x.circuits.get? 1).map (·.client.token) = some x.server.token ∧ TextFits x.server.token ∧
    Request.ringer.Fits ∧
    (x.server.handle 1 .ringer).1 = .ok (.ringerMode .normal) ∧
    (Response.ringerMode .normal).Fits ∧
    (replyMessage (Response.ringerMode .normal).encode).length ≤ maxFrame ∧
    (x.call 1 .ringer).1 = .error (.malformed "string of 65537 bytes") := by
  have hsize := length_encode_longText 65537
  have hlong : ¬ TextFits (longText 65537) := by
    rw [TextFits, hsize]
    decide
  have hlen : (Utf8.encode (longText 65537)).length < UInt32.size := by
    rw [hsize]
    decide
  have hframe : (newsOf (longText 65537)).encode.length ≤ maxFrame := by
    rw [length_encode_newsOf, hsize]
    decide
  have hfits : TextFits "audiod.IAudioProcess" := by
    unfold TextFits
    decide
  have hringer : Request.ringer.Fits := by
    intro t ht
    cases ht
  obtain ⟨hclient, htoken, hhandle, hcall⟩ := call_readAnew hlong hlen hframe
  rw [hsize] at hcall
  have htext : s!"string of {UInt32.ofNat 65537} bytes" = "string of 65537 bytes" := by decide
  rw [htext] at hcall
  refine ⟨hclient, ?_, hringer, hhandle, trivial, by decide, hcall⟩
  rw [htoken]
  exact hfits

end Patchbay
