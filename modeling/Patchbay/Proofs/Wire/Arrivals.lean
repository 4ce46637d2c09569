import Patchbay.Proofs.Wire.Mailboxes
import Patchbay.Proofs.Wire.Requests
import Patchbay.Proofs.Wire.Responses

/-!
# Arrivals

A client reads while its stream still grows, and what is written for it may hold texts that it
refuses. Whenever it reads something all the same, it has read the first whole message of the
stream, and has read what was written.
-/
namespace Patchbay.Wire

section Takes
variable {α β : Type} {m : Reader α} {f : α → Reader β} {a : α} {b : β} {n : Notification}
  {bs mid rest : List UInt8}

theorem Takes.of_bind (hm : Takes m bs a mid) (h : Takes (m >>= f) bs b rest) :
    Takes (f a) mid b rest := by
  rw [Takes, hm.bind f] at h
  exact h

theorem takes_read32_bind {f : UInt32 → Reader β} {w : UInt32}
    (h : Takes (read32 >>= f) (write32 w ++ mid) b rest) : Takes (f w) mid b rest :=
  (takes_read32.mpr rfl).of_bind h

theorem takes_read64_bind {f : UInt64 → Reader β} {w : UInt64}
    (h : Takes (read64 >>= f) (write64 w ++ mid) b rest) : Takes (f w) mid b rest :=
  (takes_read64.mpr rfl).of_bind h

/-- A text whose length can be written is read as itself or not at all. -/
theorem takes_readText_bind {f : String → Reader β} {s : String}
    (hlen : (Utf8.encode s).length < UInt32.size)
    (h : Takes (readText >>= f) (writeText s ++ mid) b rest) :
    TextFits s ∧ Takes (f s) mid b rest := by
  have hfits : TextFits s := by
    obtain ⟨t, mid', htext, -⟩ := takes_bind.mp h
    obtain ⟨ht, hbs⟩ := takes_readText.mp htext
    rw [writeText, writeText, List.append_assoc, List.append_assoc] at hbs
    have hword : Takes read32 (write32 (UInt32.ofNat (Utf8.encode s).length) ++
        (Utf8.encode s ++ mid)) (UInt32.ofNat (Utf8.encode t).length) (Utf8.encode t ++ mid') :=
      takes_read32.mpr hbs
    have hcount := congrArg UInt32.toNat (hword.unique (takes_read32.mpr rfl)).1
    have hsize : (Utf8.encode t).length < UInt32.size := Nat.lt_of_le_of_lt ht (by decide)
    rw [UInt32.toNat_ofNat_of_lt' hsize, UInt32.toNat_ofNat_of_lt' hlen] at hcount
    unfold TextFits at ht ⊢
    omega
  exact ⟨hfits, (takes_readText.mpr ⟨hfits, rfl⟩).of_bind h⟩

theorem length_texts_lt {d : Device} (h : (writeDevice d).length < UInt32.size) :
    (Utf8.encode d.network).length < UInt32.size ∧ (Utf8.encode d.mac).length < UInt32.size ∧
      (Utf8.encode d.name).length < UInt32.size := by
  simp only [writeDevice, writeText, List.length_append] at h
  omega

theorem takes_readDevice_bind {f : Device → Reader β} {d : Device}
    (hlen : (writeDevice d).length < UInt32.size)
    (h : Takes (readDevice >>= f) (writeDevice d ++ mid) b rest) :
    DeviceFits d ∧ Takes (f d) mid b rest := by
  obtain ⟨hnetwork, hmac, hname⟩ := length_texts_lt hlen
  have hfits : DeviceFits d := by
    obtain ⟨d', mid', hdevice, -⟩ := takes_bind.mp h
    unfold readDevice at hdevice
    simp only [writeDevice, List.append_assoc] at hdevice
    have htype := (takes_readType.mpr rfl).of_bind hdevice
    have hrole := (takes_readRole.mpr rfl).of_bind htype
    have htime := takes_read64_bind hrole
    have hprivacy := (takes_readPrivacy.mpr rfl).of_bind htime
    obtain ⟨hnetwork, htexts⟩ := takes_readText_bind hnetwork hprivacy
    obtain ⟨hmac, htexts⟩ := takes_readText_bind hmac htexts
    obtain ⟨hname, -⟩ := takes_readText_bind hname htexts
    exact ⟨hnetwork, hmac, hname⟩
  exact ⟨hfits, (takes_readDevice.mpr ⟨hfits, rfl⟩).of_bind h⟩

theorem Notification.fits_of_takes {n' : Notification} (hlen : n.payload.length < UInt32.size)
    (h : Takes Notification.read (n.payload ++ mid) n' rest) : n.Fits := by
  unfold Notification.read at h
  cases n with
  | deviceChanged id previous current =>
      simp only [payload, List.append_assoc, List.length_append] at h hlen
      have hid := takes_read64_bind (takes_read32_bind h)
      obtain ⟨hprevious, hdevices⟩ := takes_readDevice_bind (by omega) hid
      obtain ⟨hcurrent, -⟩ := takes_readDevice_bind (by omega) hdevices
      exact ⟨hprevious, hcurrent⟩
  | teardown id reason =>
      simp only [payload, writeText, List.append_assoc, List.length_append] at hlen
      simp only [payload, List.append_assoc] at h
      have hid := takes_read64_bind (takes_read32_bind h)
      exact (takes_readText_bind (by omega) hid).1
  | parameter c =>
      obtain ⟨network, key, condition, value⟩ := c
      simp only [payload, writeText, List.append_assoc, List.length_append] at hlen
      simp only [payload, writeFlag, List.append_assoc] at h
      have hflag := (takes_readFlag.mpr ⟨_, rfl, rfl⟩).of_bind (takes_read32_bind h)
      obtain ⟨hnetwork, htexts⟩ := takes_readText_bind (by omega) hflag
      obtain ⟨hkey, htexts⟩ := takes_readText_bind (by omega) htexts
      obtain ⟨hcondition, htexts⟩ := takes_readText_bind (by omega) htexts
      exact ⟨hnetwork, hkey, hcondition, (takes_readText_bind (by omega) htexts).1⟩

/-- A message of the server that a client reads is read as what it is. -/
theorem ServerMessage.eq_of_decode {sent read : ServerMessage}
    (hlen : sent.encode.length ≤ maxFrame)
    (h : decode sent.encode = .ok read) : read = sent := by
  cases sent with
  | reply response =>
      rw [encode, decode_replyMessage] at h
      cases h
      rfl
  | notification n =>
      have hfits : n.Fits := by
        have hkind : read32.run.run n.encode = (.ok 1, n.payload) := takes_read32.mpr rfl
        unfold decode at h
        rw [encode, hkind] at h
        simp only [show ¬ (1 : UInt32) = 0 by decide, if_false, if_true] at h
        cases hread : Wire.decode Notification.read n.payload with
        | error e =>
            rw [hread] at h
            cases h
        | ok n' =>
            have htakes := decode_eq_ok_iff.mp hread
            rw [← List.append_nil n.payload] at htakes
            refine Notification.fits_of_takes ?_ htakes
            rw [encode, Notification.encode, List.length_append] at hlen
            exact Nat.lt_of_le_of_lt (Nat.le_of_add_left_le hlen) (by decide)
      rw [encode, decode_notification hfits] at h
      cases h
      rfl

/-- The answer to the making of a session that a client reads is read as what it is. -/
theorem eq_of_decode_session {id id' : UInt64} {d d' : Device}
    (hlen : (Response.session id d).encode.length ≤ maxFrame)
    (h : decode (Response.readFor .createSession) (Response.session id d).encode =
      .ok (.session id' d')) : id' = id ∧ d' = d := by
  have hsize : (writeDevice d).length < UInt32.size := by
    simp only [Response.encode, Response.payload, List.length_append] at hlen
    exact Nat.lt_of_le_of_lt (by omega : _ ≤ maxFrame) (by decide)
  have hfits : DeviceFits d := by
    have htakes := decode_eq_ok_iff.mp h
    unfold Response.readFor at htakes
    rw [Response.encode, Response.payload, ← List.append_nil (writeDevice d)] at htakes
    have hfields := (takes_readCode.mpr rfl).of_bind htakes
    simp only [Status.ofCode_code, ne_eq, not_true_eq_false, if_false] at hfields
    exact (takes_readDevice_bind hsize (takes_read64_bind hfields)).1
  have hpayload : (Response.session id d).payload.length < UInt32.size := by
    rw [Response.encode, List.length_append] at hlen
    exact Nat.lt_of_le_of_lt (Nat.le_of_add_left_le hlen) (by decide)
  have hanswers : (Response.session id d).Answers .createSession := rfl
  rw [Response.decode_encode hanswers hfits hpayload] at h
  cases h
  exact ⟨rfl, rfl⟩

/-- Whatever tokens are used, a request that is read is of the kind that was written. -/
theorem Request.kind_of_decode {r r' : Request} {token token' : String}
    (h : decode (Request.readFor token) (r.encode token') = .ok r') : r'.kind = r.kind := by
  have htakes := decode_eq_ok_iff.mp h
  unfold Request.readFor at htakes
  rw [Request.encode, List.append_assoc] at htakes
  have hfields := (Request.takes_readKind.mpr rfl).of_bind htakes
  obtain ⟨actual, mid, -, hpayload⟩ := takes_bind.mp hfields
  simp only [takes_bind, takes_ite] at hpayload
  rcases hpayload with ⟨-, _, _, -, hpayload⟩ | ⟨-, hpayload⟩
  · exact Request.kind_of_takes hpayload
  · exact Request.kind_of_takes hpayload

end Takes

namespace Client
variable {c c' : Client} {m : ServerMessage} {items : List ServerMessage} {more : List UInt8}
  {response : List UInt8} {n : Notification}

/-- The first message of the messages that are sent is read, if any is. -/
theorem nextMessage_of_growing (hitems : ∀ m ∈ items, m.encode.length ≤ maxFrame)
    (hbytes : c.incoming ++ more = stream items) (h : c.nextMessage = (.ok m, c')) :
    ∃ left rest, items = m :: left ∧ c' = { c with incoming := rest } ∧
      rest ++ more = stream left := by
  unfold nextMessage at h
  split at h
  · cases h
  · cases h
  · rename_i message rest hnext
    have hmessages : ∀ bs ∈ items.map ServerMessage.encode, bs.length ≤ maxFrame := by
      simpa using hitems
    have hframes : c.incoming ++ more = (items.map ServerMessage.encode).flatMap framed := by
      rw [hbytes, stream, List.flatMap_map]
    have hfront : 4 ≤ c.incoming.length ∧ (LittleEndian.value (c.incoming.take 4) ≤ maxFrame →
        4 + LittleEndian.value (c.incoming.take 4) ≤ c.incoming.length) := by
      unfold nextFrame at hnext
      dsimp only at hnext
      split at hnext
      · cases hnext
      · rename_i hfour
        rw [List.length_take, Nat.not_lt] at hfour
        refine ⟨by omega, fun hshort => ?_⟩
        rw [if_neg (Nat.not_lt.mpr hshort)] at hnext
        split at hnext
        · cases hnext
        · rename_i hwhole
          rw [List.length_take, List.length_drop] at hwhole
          omega
    obtain ⟨message', ms, rest', hcons, hincoming, hrest⟩ :=
      front_of_frames hmessages hframes hfront.1 hfront.2
    obtain ⟨sent, left, rfl, rfl, rfl⟩ := List.map_eq_cons_iff.mp hcons
    have hsent := hitems sent List.mem_cons_self
    rw [hincoming, nextFrame_framed hsent] at hnext
    cases hnext
    obtain ⟨hdecode, rfl⟩ := Prod.mk.inj h
    cases ServerMessage.eq_of_decode hsent hdecode
    exact ⟨left, rest, rfl, rfl, by rw [hrest, stream, List.flatMap_map]⟩

/-- A client that gets a reply has kept the notifications before it. -/
theorem nextReply_of_growing (hitems : ∀ m ∈ items, m.encode.length ≤ maxFrame)
    (hbytes : c.incoming ++ more = stream items) (h : c.nextReply = (.ok response, c')) :
    ∃ (ns : List Notification) (left : List ServerMessage) (rest : List UInt8),
      items = ns.map .notification ++ .reply response :: left ∧
      c' = { c with incoming := rest, queue := c.queue ++ ns } ∧ rest ++ more = stream left := by
  induction items generalizing c with
  | nil =>
      rw [nextReply] at h
      split at h
      · cases h
      · rename_i hnext
        obtain ⟨left, rest, hcons, -⟩ := nextMessage_of_growing hitems hbytes hnext
        cases hcons
      · rename_i hnext
        obtain ⟨left, rest, hcons, -⟩ := nextMessage_of_growing hitems hbytes hnext
        cases hcons
  | cons item items ih =>
      rw [nextReply] at h
      split at h
      · cases h
      · rename_i response' c₁ hnext
        obtain ⟨left, rest, hcons, rfl, hrest⟩ := nextMessage_of_growing hitems hbytes hnext
        cases hcons
        cases h
        exact ⟨[], items, rest, rfl, by rw [List.append_nil], hrest⟩
      · rename_i n c₁ hnext
        obtain ⟨left, rest, hcons, rfl, hrest⟩ := nextMessage_of_growing hitems hbytes hnext
        cases hcons
        obtain ⟨ns, left, rest', rfl, rfl, hrest'⟩ :=
          ih (fun m hm => hitems m (List.mem_cons_of_mem _ hm)) hrest h
        exact ⟨n :: ns, left, rest', rfl, by simp, hrest'⟩

/-- A client that gets a notification had kept it or reads it first. -/
theorem nextNotification_of_growing (hitems : ∀ m ∈ items, m.encode.length ≤ maxFrame)
    (hbytes : c.incoming ++ more = stream items) (h : c.nextNotification = (.ok n, c')) :
    (∃ ns, c.queue = n :: ns ∧ c' = { c with queue := ns }) ∨
    c.queue = [] ∧ ∃ left rest, items = .notification n :: left ∧
      c' = { c with incoming := rest } ∧ rest ++ more = stream left := by
  unfold nextNotification at h
  split at h
  · rename_i n' ns hqueue
    cases h
    exact .inl ⟨ns, hqueue, rfl⟩
  · rename_i hqueue
    split at h
    · cases h
    · rename_i n' c₁ hnext
      cases h
      exact .inr ⟨hqueue, nextMessage_of_growing hitems hbytes hnext⟩
    · cases h

end Client
end Patchbay.Wire
