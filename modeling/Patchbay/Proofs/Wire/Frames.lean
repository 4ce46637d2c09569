import Patchbay.Proofs.Wire.Fields
import Patchbay.Wire.Client

/-!
# Frames and the messages in them

A frame reads back as its message, whatever follows it. A client that waits for a reply passes
over the notifications before it and keeps them, so long as it can read them.
-/
namespace Patchbay.Wire

variable {message rest response : List UInt8} {n : Notification} {notes : List Notification}

/-- The frame of a message. -/
def framed (message : List UInt8) : List UInt8 :=
  write32 (UInt32.ofNat message.length) ++ message

theorem framed_ne_nil : framed message ≠ [] := by
  intro h
  have hlen := congrArg List.length h
  rw [framed, List.length_append, length_write32] at hlen
  simp at hlen

theorem frame_eq_ok (h : message.length ≤ maxFrame) : frame message = .ok (framed message) := by
  unfold frame
  rw [if_neg (Nat.not_lt.mpr h)]
  rfl

theorem take_four_framed : (framed message ++ rest).take 4 =
    write32 (UInt32.ofNat message.length) := by
  rw [framed, List.append_assoc]
  exact List.take_left' (length_write32 _)

theorem drop_four_framed : (framed message ++ rest).drop 4 = message ++ rest := by
  rw [framed, List.append_assoc]
  exact List.drop_left' (length_write32 _)

theorem value_length (h : message.length ≤ maxFrame) :
    LittleEndian.value (write32 (UInt32.ofNat message.length)) = message.length := by
  have hsize : message.length < UInt32.size := Nat.lt_of_le_of_lt h (by decide)
  have hlt : message.length < 256 ^ 4 := hsize
  rw [write32, UInt32.toNat_ofNat_of_lt' hsize]
  exact ((LittleEndian.eq_bytes_iff hlt).mp rfl).2

theorem nextFrame_framed (h : message.length ≤ maxFrame) :
    nextFrame (framed message ++ rest) = (.ok (some message), rest) := by
  unfold nextFrame
  dsimp only
  rw [take_four_framed, drop_four_framed, value_length h, length_write32, List.take_left,
    List.drop_left]
  simp only [Nat.lt_irrefl, if_false, gt_iff_lt, Nat.not_lt.mpr h]

theorem length_writeDevice_le {d : Device} (h : DeviceFits d) :
    (writeDevice d).length ≤ 3 * maxText + 32 := by
  have hnetwork := length_writeText_le h.network
  have hmac := length_writeText_le h.mac
  have hname := length_writeText_le h.name
  simp only [writeDevice, List.length_append, length_writeCode, length_write64]
  omega

theorem decode_replyMessage : ServerMessage.decode (replyMessage response) =
    .ok (.reply response) := by
  have hkind : read32.run.run (replyMessage response) = (.ok 0, response) := takes_read32.mpr rfl
  unfold ServerMessage.decode
  rw [hkind]
  rfl

namespace Notification

/-- All texts of the notification are texts that a reader accepts. -/
def Fits : Notification → Prop
  | deviceChanged _ previous current => DeviceFits previous ∧ DeviceFits current
  | teardown _ reason => TextFits reason
  | parameter c =>
    TextFits (c.network.getD "") ∧ TextFits c.key ∧ TextFits c.condition ∧ TextFits c.value

theorem takes_read (h : n.Fits) : Takes read (n.payload ++ rest) n rest := by
  unfold read
  cases n with
  | deviceChanged id previous current =>
      obtain ⟨hprevious, hcurrent⟩ := h
      simp [payload, hprevious, hcurrent]
  | teardown id reason =>
      have hreason : TextFits reason := h
      simp [payload, hreason]
  | parameter c =>
      obtain ⟨network, key, condition, value⟩ := c
      obtain ⟨hnetwork, hkey, hcondition, hvalue⟩ := h
      cases network with
      | none =>
          simp [payload, writeFlag, hkey, hcondition, hvalue]
          exact ⟨"", rfl, hnetwork⟩
      | some network =>
          have hnetwork : TextFits network := hnetwork
          simp [payload, writeFlag, hnetwork, hkey, hcondition, hvalue]

/-- What can be read fits a frame. -/
theorem length_encode_le (h : n.Fits) : n.encode.length ≤ maxFrame := by
  cases n with
  | deviceChanged id previous current =>
      have hprevious := length_writeDevice_le h.1
      have hcurrent := length_writeDevice_le h.2
      simp only [encode, payload, List.length_append, length_write32, length_write64, maxText,
        maxFrame] at *
      omega
  | teardown id reason =>
      have hreason := length_writeText_le h
      simp only [encode, payload, List.length_append, length_write32, length_write64, maxText,
        maxFrame] at *
      omega
  | parameter c =>
      have hnetwork := length_writeText_le h.1
      have hkey := length_writeText_le h.2.1
      have hcondition := length_writeText_le h.2.2.1
      have hvalue := length_writeText_le h.2.2.2
      simp only [encode, payload, writeFlag, List.length_append, length_write32,
        List.length_singleton, maxText, maxFrame] at *
      omega

end Notification

theorem decode_notification (h : n.Fits) :
    ServerMessage.decode n.encode = .ok (.notification n) := by
  have hread : decode Notification.read n.payload = .ok n := by
    have htakes : Takes Notification.read (n.payload ++ []) n [] := Notification.takes_read h
    rw [List.append_nil] at htakes
    exact decode_eq_ok_iff.mpr htakes
  have hkind : read32.run.run n.encode = (.ok 1, n.payload) := takes_read32.mpr rfl
  unfold ServerMessage.decode
  rw [hkind]
  simp only [hread]
  rfl

namespace Client

theorem nextMessage_framed {c : Client} {m : ServerMessage} (hlen : message.length ≤ maxFrame)
    (hdecode : ServerMessage.decode message = .ok m)
    (hincoming : c.incoming = framed message ++ rest) :
    c.nextMessage = (.ok m, { c with incoming := rest }) := by
  unfold nextMessage
  rw [hincoming, nextFrame_framed hlen]
  simp only [hdecode]

theorem nextReply_of_notes {c : Client} (hnotes : ∀ n ∈ notes, n.Fits)
    (hlen : (replyMessage response).length ≤ maxFrame)
    (hincoming : c.incoming =
      notes.flatMap (fun n => framed n.encode) ++ (framed (replyMessage response) ++ rest)) :
    c.nextReply = (.ok response, { c with incoming := rest, queue := c.queue ++ notes }) := by
  induction notes generalizing c with
  | nil =>
      have hnext := nextMessage_framed hlen decode_replyMessage hincoming
      rw [nextReply]
      split <;> rename_i h <;> rw [hnext] at h <;> cases h
      rw [List.append_nil]
  | cons n notes ih =>
      rw [List.forall_mem_cons] at hnotes
      rw [List.flatMap_cons, List.append_assoc] at hincoming
      have hnext := nextMessage_framed (Notification.length_encode_le hnotes.1)
        (decode_notification hnotes.1) hincoming
      rw [nextReply]
      split <;> rename_i h <;> rw [hnext] at h <;> cases h
      rw [ih hnotes.2 rfl, List.append_assoc, List.singleton_append]

end Client
end Patchbay.Wire
