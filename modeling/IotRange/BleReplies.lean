import IotRange.BleUart

/-! # BLE replies over whole runs

What `bt_nus_send` gets is always the newest reply, for the connection that asked. There is one
buffer, so the replies of a run wait in their order only as long as no request is answered while
an earlier reply waits.
-/
namespace IotRange.BleReplies
open AppAuth AppProtocol AppConfig BleUart Mailbox History
set_option autoImplicit false

section Replies

variable {Conn : Type}

/-- A request on the reply's connection that `app_config_handle_ble` answers with the reply. -/
def RepliesWith (reply : Reply Conn) (s : State Conn) (i : Input Conn) : Prop :=
  ∃ env data, i = .received reply.conn env data ∧ (appConfigHandleBle env s.device data).2 = reply.bytes ∧
    reply.bytes ≠ []

def Answered (s : State Conn) (i : Input Conn) : Prop := ∃ reply, RepliesWith reply s i

/-- `bt_nus_send` is called and takes the reply. -/
def SentOk (s : State Conn) (i : Input Conn) : Prop := ∃ sent ∈ (machine Conn).output s i, sent.err = 0

instance (s : State Conn) (i : Input Conn) : Decidable (SentOk s i) :=
  inferInstanceAs (Decidable (∃ sent ∈ (machine Conn).output s i, sent.err = 0))

variable {s : State Conn} {i : Input Conn}

theorem replyOp_eq_put_iff {reply : Reply Conn} : replyOp s i = .put reply ↔ RepliesWith reply s i := by
  cases i with
  | received conn env data =>
    dsimp only [replyOp]
    constructor
    · intro hPut
      split at hPut
      · cases hPut
      · rename_i hReply
        obtain rfl := Op.put.inj hPut
        exact ⟨env, data, rfl, rfl, hReply⟩
    · rintro ⟨env, data, hInput, hReply, hNonempty⟩
      obtain ⟨rfl, rfl, rfl⟩ := Input.received.inj hInput
      rw [hReply, if_neg hNonempty]
  | retryWork | sendEnabled =>
    constructor
    · intro hPut
      dsimp only [replyOp] at hPut
      unfold sendOp at hPut
      split at hPut
      · cases hPut
      · split at hPut <;> cases hPut
    · rintro ⟨env, data, hInput, -⟩
      cases hInput
  | disconnected | elsewhere =>
    constructor
    · exact fun hPut => by cases hPut
    · rintro ⟨env, data, hInput, -⟩
      cases hInput

/-- A successful send is the end of the reply that waits. -/
theorem replyOp_of_sentOk (h : SentOk s i) : replyOp s i = .drop := by
  obtain ⟨sent, hSent, hErr⟩ := h
  cases i with
  | received | disconnected | elsewhere => cases hSent
  | retryWork | sendEnabled =>
    dsimp only [replyOp]
    rw [Option.mem_def.mp hSent, sendOp, if_pos (Or.inl hErr)]

theorem held_of_sentOk (h : SentOk s i) : s.held ≠ none := by
  obtain ⟨sent, hSent, -⟩ := h
  exact held_ne_none_of_mem_output hSent

theorem oneShot : (machine Conn).OneShot (fun s => s.held ≠ none) Answered SentOk := by
  have hShot : (machine Conn).OneShot (fun s => s.held ≠ none) (fun s i => ∃ reply, replyOp s i = .put reply) SentOk :=
    holds_machine.oneShot (fun _ _ => held_of_sentOk) fun _ _ => replyOp_of_sentOk
  simp only [replyOp_eq_put_iff] at hShot
  exact hShot

/-- Nothing happens to the reply that waits. -/
def LeavesReply (s : State Conn) (i : Input Conn) : Prop := ¬ Answered s i ∧ ¬ SentOk s i ∧ i ≠ .disconnected

theorem leavesReply_of_keep (h : replyOp s i = .keep) : LeavesReply s i := by
  refine ⟨?_, ?_, ?_⟩
  · rintro ⟨reply, hReply⟩
    cases h.symm.trans (replyOp_eq_put_iff.mpr hReply)
  · intro hSent
    cases h.symm.trans (replyOp_of_sentOk hSent)
  · rintro rfl
    cases h

end Replies

/-! ## Integrity and routing -/

section Routing

variable {Conn : Type} (device : Device)

theorem held_boot : (State.boot device : State Conn).held = none := rfl

theorem sound_run (is : List (Input Conn)) : ((machine Conn).run (.boot device) is).Sound :=
  (machine Conn).run_invariant (I := State.Sound) (fun _ i h => sound_next h i) _ is
    ⟨Nat.zero_le _, fun hHeld => absurd (held_boot device) hHeld⟩

theorem newest_of_output {is : List (Input Conn)} {i : Input Conn} {sent : NusSend Conn}
    (h : (machine Conn).output ((machine Conn).run (.boot device) is) i = some sent) :
    sent.reply.bytes.length = sent.len.toNat ∧
      Since (fun pre j => RepliesWith sent.reply ((machine Conn).run (.boot device) pre) j)
        (fun pre j => LeavesReply ((machine Conn).run (.boot device) pre) j) is := by
  obtain ⟨hHeld, hLen⟩ := held_of_output h
  constructor
  · have hFits : sent.len.toNat ≤ appProtoRespMax := hLen ▸ (sound_run device is).len
    rw [NusSend.reply, List.length_take, List.Vector.toList_length, Nat.min_eq_left hFits]
  · refine (holds_machine.since_put (held_boot device) hHeld).imp ?_ ?_
    · exact fun pre j hPut => replyOp_eq_put_iff.mp hPut
    · exact fun pre j hKeep => leavesReply_of_keep hKeep

/-- Without a reply that waits nothing is sent until a request is answered. -/
theorem output_of_unanswered {s : State Conn} (h : s.held = none) {seg : List (Input Conn)}
    (hSeg : ∀ p ∈ (machine Conn).situations s seg, ¬ Answered p.1 p.2) :
    ∀ p ∈ (machine Conn).situations s seg, (machine Conn).output p.1 p.2 = none := by
  intro p hp
  obtain ⟨pre, post, rfl, hState⟩ := (machine Conn).mem_situations_iff.mp hp
  rw [Machine.situations_append, List.forall_mem_append] at hSeg
  have hFree : ¬ ((machine Conn).run s pre).held ≠ none := oneShot.unarmed_run (not_not.mpr h) hSeg.1
  cases hOutput : (machine Conn).output p.1 p.2 with
  | none => rfl
  | some sent =>
    exact absurd (hState ▸ held_ne_none_of_mem_output (Option.mem_def.mpr hOutput)) hFree

/-- Each call of `bt_nus_send` gets the newest reply, which is for its connection, has not been sent
yet and was computed after the last disconnect. -/
theorem sends_newest_reply :
    (∀ is i sent, (machine Conn).output ((machine Conn).run (.boot device) is) i = some sent →
      sent.reply.bytes.length = sent.len.toNat ∧
        Since (fun pre j => RepliesWith sent.reply ((machine Conn).run (.boot device) pre) j)
          (fun pre j => LeavesReply ((machine Conn).run (.boot device) pre) j) is) ∧
      (∀ (s : State Conn) seg, (∀ p ∈ (machine Conn).situations s seg, ¬ Answered p.1 p.2) →
        ((machine Conn).situations s seg).countP (fun p => SentOk p.1 p.2) ≤ 1) ∧
      ∀ (s : State Conn) seg,
        (∀ p ∈ (machine Conn).situations ((machine Conn).next s .disconnected) seg, ¬ Answered p.1 p.2) →
          ∀ p ∈ (machine Conn).situations ((machine Conn).next s .disconnected) seg,
            (machine Conn).output p.1 p.2 = none := by
  refine ⟨fun is i sent hSent => newest_of_output device hSent, ?_, ?_⟩
  · intro s seg hSeg
    classical
    exact oneShot.countP_uses_le_one s seg hSeg
  · exact fun s seg hSeg => output_of_unanswered rfl hSeg

end Routing

/-! ## Replies that are lost -/

section Loss

variable {Conn : Type} (device : Device)

/-- The replies not given up yet: a reply ends with the `bt_nus_send` that takes it or that is its
last attempt, and all of them end with a disconnect. -/
def outstanding (is : List (Input Conn)) : List (Reply Conn) := queued (machine Conn) replyOp (.boot device) [] is

/-- Along the whole run the outstanding replies are held, the first one is the one that is sent,
and its work item is scheduled. -/
structure KeepsReplies (is : List (Input Conn)) : Prop where
  held : ∀ pre, pre <+: is → ((machine Conn).run (.boot device) pre).held.toList = outstanding device pre
  inOrder : ∀ pre i, pre ++ [i] <+: is → ∀ sent,
    (machine Conn).output ((machine Conn).run (.boot device) pre) i = some sent →
      (outstanding device pre).head? = some sent.reply
  scheduled : ∀ pre, pre <+: is → outstanding device pre ≠ [] →
    ((machine Conn).run (.boot device) pre).sendRetryWork = true

theorem fits_iff {s : State Conn} {i : Input Conn} : Fits s.held (replyOp s i) ↔ (Answered s i → s.held = none) := by
  constructor
  · rintro hFits ⟨reply, hReply⟩
    exact hFits reply (replyOp_eq_put_iff.mpr hReply)
  · intro hFree reply hPut
    exact hFree ⟨reply, replyOp_eq_put_iff.mp hPut⟩

/-- A run keeps its replies exactly if no request in it is answered while a reply waits. -/
theorem keepsReplies_iff (is : List (Input Conn)) :
    KeepsReplies device is ↔
      ∀ p ∈ (machine Conn).situations (.boot device) is, Answered p.1 p.2 → p.1.held = none := by
  have hQueued := holds_machine.queued_iff (State.boot device : State Conn) is
  simp only [fits_iff] at hQueued
  rw [← hQueued]
  constructor
  · exact fun hKeeps => hKeeps.held
  · intro hHeld
    have hKept : ∀ pre, pre <+: is → ((machine Conn).run (.boot device) pre).held.toList = outstanding device pre :=
      hHeld
    refine ⟨hKept, ?_, ?_⟩
    · intro pre i hPre sent hSent
      rw [← hKept pre ((List.prefix_append pre [i]).trans hPre), (held_of_output hSent).1]
      rfl
    · intro pre hPre hOutstanding
      refine (sound_run device pre).scheduled fun hNone => hOutstanding ?_
      rw [← hKept pre hPre, hNone]
      rfl

end Loss

theorem length_powerOn : [(0x04 : UInt8), 0x01].length < 2 ^ 16 := by decide

/-- POWER ON, and a command that does not exist. -/
def powerOnReq : Payload := ⟨[0x04, 0x01], length_powerOn⟩
def unknownReq : Payload := ⟨[0x05], by decide⟩

def twoRequests (env : Env) : List (Input Unit) := [.received () env powerOnReq, .received () env unknownReq]

/-- The second reply overwrites the first one before it has been sent. -/
theorem twoRequests_not_keepsReplies :
    ¬ KeepsReplies Device.boot (twoRequests ⟨0, List.Vector.replicate 8 0⟩) := by
  intro hKeeps
  have hHeld := hKeeps.held _ List.prefix_rfl
  have hOutstanding : outstanding Device.boot (twoRequests ⟨0, List.Vector.replicate 8 0⟩) =
      [⟨(), [cmdAction, Status.ok.code, 0x01, DeviceState.powerOn.code]⟩, ⟨(), [0x05, Status.unsupported.code]⟩] := rfl
  have hSlot : ((machine Unit).run (.boot Device.boot) (twoRequests ⟨0, List.Vector.replicate 8 0⟩)).held.toList =
      [⟨(), [0x05, Status.unsupported.code]⟩] := rfl
  rw [hOutstanding, hSlot] at hHeld
  cases hHeld

end IotRange.BleReplies
