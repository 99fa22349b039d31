import IotRange.RetryBudget
import IotRange.StaleTag
import IotRange.Program

/-! # Request and reply over both transports

A client of BLE waits for its notification, and one of NFC writes its command and reads the tag
back. To such clients the program is the device that answers every request at once, also when one
asks while the other waits.
-/
namespace IotRange.Transport
open AppAuth AppProtocol AppConfig Device NfcReply Ndef StaleTag Program Machine
set_option autoImplicit false

/-! ## Reading the tag back -/

/-- What a reader takes for a reply. -/
def readInfo (file : List UInt8) : List (List UInt8) :=
  match shortRecord.decode (fileMessage file) with
  | .ok (record, []) => if record.type = appConfigInfoType then [record.payload] else []
  | _ => []

theorem readInfo_of_carriesReply {file reply : List UInt8} (h : CarriesReply file reply) : readInfo file = [reply] := by
  obtain ⟨record, hDecode, -, -, hType, rfl⟩ := h
  rw [readInfo, hDecode]
  exact if_pos hType

/-- A command is no reply. -/
theorem readInfo_of_request {file : List UInt8} {payload : List UInt8} {msgLen : UInt32}
    (hLen : (file.drop 2).length = msgLen.toNat) (h : ndefFrame (file.drop 2) msgLen = .ok (some payload)) :
    readInfo file = [] := by
  obtain ⟨-, hTypeLen, -⟩ := of_ndefFrame hLen h
  unfold readInfo
  split
  · rename_i record hDecode
    refine if_neg fun hType => ?_
    have hBytes : fileMessage file = record.bytes :=
      ((shortRecord.decode_eq_ok _ _ _).mp hDecode).trans (List.append_nil _)
    have hLong : 1 < fileLength file := by
      have hLength := congrArg List.length hBytes
      rw [ShortRecord.bytes, fileMessage, List.length_take, List.length_cons, List.length_cons] at hLength
      omega
    have hSecond : byteAt (fileMessage file) 1 = byteAt (file.drop 2) 1 := byteAt_take hLong
    have hInfo : byteAt record.bytes 1 = 16 := by
      rw [ShortRecord.bytes, hType]
      rfl
    rw [← hSecond, hBytes, hInfo] at hTypeLen
    cases hTypeLen
  · rfl

theorem readInfo_of_tagRequest {p : Platform} {file : Bytes p.size} {req : Payload}
    (h : Platform.tagRequest file = .ok (some req)) : readInfo file.toList = [] := by
  rw [Platform.tagRequest, ndefRequest_eq, p.documented.msgOffset] at h
  have hTwo : 2 ≤ (p.buffer file).bytes.length := (Platform.length_buffer file).symm ▸ p.two_le_size
  have hLen : (file.toList.drop 2).length = (p.lib.msgSizeGet (p.buffer file).length).toNat := by
    rw [toNat_msgSizeGet p.documented hTwo, List.length_drop]
    rfl
  cases hFrame : ndefFrame ((p.buffer file).bytes.drop 2) (p.lib.msgSizeGet (p.buffer file).length) with
  | error e =>
    rw [hFrame] at h
    cases h
  | ok frame =>
    cases frame with
    | none =>
      rw [hFrame] at h
      cases h
    | some payload => exact readInfo_of_request hLen hFrame

/-! ## Replies over BLE -/

/-- The reply of the device, if there is one. -/
def answers (d : Device) (i : LocalInput) : List (List UInt8) :=
  if localMachine.output d i = [] then [] else [localMachine.output d i]

/-- A notification that `bt_nus_send` has taken. -/
def delivered {Conn : Type} (sent : BleUart.NusSend Conn) : List (List UInt8) :=
  if sent.err = 0 then [sent.reply.bytes] else []

section Ble

variable {Conn : Type} (t : BleUart.State Conn)

def waiting : List (List UInt8) := t.held.toList.map BleUart.Reply.bytes

def bleDeliveries (j : BleUart.Input Conn) : List (List UInt8) :=
  ((BleUart.machine Conn).output t j).toList.flatMap delivered

def bleAnswers (j : BleUart.Input Conn) : List (List UInt8) :=
  match j with
  | .received _ env data => answers t.device (.wire ⟨env.uptime, .request .ble env.rand data⟩)
  | .retryWork _ | .sendEnabled _ _ | .disconnected | .elsewhere _ => []

/-- While a reply waits nothing else is answered and the connection stays, and `bt_nus_send` takes
the reply before its attempts are used up. -/
def Patient (j : BleUart.Input Conn) : Prop :=
  match j with
  | .received _ _ _ => bleAnswers t j ≠ [] → t.held = none
  | .retryWork _ | .sendEnabled _ _ => ¬ RetryBudget.Abandons t j
  | .disconnected => t.held = none
  | .elsewhere _ => True

variable {t}

/-- An attempt hands on the reply that waits or leaves it where it is. -/
theorem balance_of_sendOp {j : BleUart.Input Conn}
    (hOp : BleUart.replyOp t j = BleUart.sendOp t ((BleUart.machine Conn).output t j))
    (hPatient : ¬ RetryBudget.Abandons t j) :
    waiting t = bleDeliveries t j ++ waiting ((BleUart.machine Conn).next t j) := by
  have hNext := BleUart.holds_machine t j
  rw [hOp] at hNext
  cases hOutput : (BleUart.machine Conn).output t j with
  | none =>
    rw [hOutput] at hNext
    rw [bleDeliveries, hOutput, waiting, waiting, hNext]
    rfl
  | some sent =>
    have hHeld := (BleUart.held_of_output hOutput).1
    rw [hOutput, hHeld, BleUart.sendOp] at hNext
    rw [bleDeliveries, hOutput, Option.toList_some, List.flatMap_singleton, delivered, waiting, waiting, hHeld, hNext]
    by_cases hErr : sent.err = 0
    · rw [if_pos hErr, if_pos (.inl hErr)]
      rfl
    · have hFailed : RetryBudget.Failed t j := ⟨sent, hOutput, hErr⟩
      have hMore : ¬ (sent.err = 0 ∨ BleUart.LastAttempt t) := by
        rintro (hTaken | hLast)
        · exact hErr hTaken
        · exact hPatient (RetryBudget.abandons_iff.mpr ⟨hFailed, hLast⟩)
      rw [if_neg hErr, if_neg hMore]
      rfl

theorem ble_balance {j : BleUart.Input Conn} (h : Patient t j) :
    waiting t ++ bleAnswers t j = bleDeliveries t j ++ waiting ((BleUart.machine Conn).next t j) := by
  cases j with
  | received conn env data =>
    have hNext := BleUart.holds_machine t (.received conn env data)
    have hOutput : localMachine.output t.device (.wire ⟨env.uptime, .request .ble env.rand data⟩) =
        (appConfigHandleBle env t.device data).2 := rfl
    have hAnswers : bleAnswers t (.received conn env data) = if (appConfigHandleBle env t.device data).2 = [] then []
        else [(appConfigHandleBle env t.device data).2] := by
      rw [← hOutput]
      rfl
    have hNone : bleDeliveries t (.received conn env data) = [] := rfl
    dsimp only [Patient] at h
    rw [hAnswers] at h
    rw [hAnswers, hNone, List.nil_append, waiting, waiting, hNext]
    dsimp only [BleUart.replyOp]
    split
    · exact List.append_nil _
    · rename_i hReply
      rw [if_neg hReply] at h
      rw [h (List.cons_ne_nil _ _)]
      rfl
  | retryWork err => exact (List.append_nil _).trans (balance_of_sendOp rfl h)
  | sendEnabled enabled err => exact (List.append_nil _).trans (balance_of_sendOp rfl h)
  | disconnected =>
    have hHeld : t.held = none := h
    rw [waiting, hHeld]
    rfl
  | elsewhere device => exact List.append_nil _

end Ble

/-! ## Replies of the program -/

section Replies

variable {p : Platform} {Conn : Type} (s : State p Conn)

def deliveries (i : Input p.size Conn) : List (List UInt8) := (sends s i).flatMap delivered

/-- What the device answers to a BLE client. The shell shows its answers itself. -/
def clientAnswers (i : Input p.size Conn) : List (List UInt8) :=
  match i with
  | .received _ _ _ => localMachine.observe answers s.ble.device (deviceInputs s i)
  | .retryWork _ | .sendEnabled _ _ | .disconnected _ | .tagWrite _ | .ndefUpdated _ _ | .callback | .loop | .setter _
  | .configGet _ => []

def PatientBle (i : Input p.size Conn) : Prop := ∀ j ∈ bleInputs s i, Patient s.ble j

variable {s}

theorem bleInputs_cases (i : Input p.size Conn) : bleInputs s i = [] ∨ ∃ j, bleInputs s i = [j] := by
  unfold bleInputs
  split
  · exact .inl rfl
  · split
    any_goals exact .inr ⟨_, rfl⟩
    all_goals exact .inl rfl

theorem clientAnswers_step (i : Input p.size Conn) :
    (BleUart.machine Conn).observe bleAnswers s.ble (bleInputs s i) = clientAnswers s i := by
  obtain ⟨ble, flash, outOfBounds⟩ := s
  cases outOfBounds with
  | true => cases i <;> rfl
  | false => cases i <;> rfl

theorem deliveries_step (i : Input p.size Conn) :
    (BleUart.machine Conn).observe bleDeliveries s.ble (bleInputs s i) = deliveries s i := by
  rw [deliveries, ← sends_step, observe, observe, List.flatMap_assoc]
  rfl

/-- Whatever the step is, a reply that comes in is delivered or waits. -/
theorem balance_next {i : Input p.size Conn} (h : PatientBle s i) :
    waiting s.ble ++ clientAnswers s i = deliveries s i ++ waiting ((machine p Conn).next s i).ble := by
  have hSituations : ∀ q ∈ (BleUart.machine Conn).situations s.ble (bleInputs s i), Patient q.1 q.2 := by
    obtain hNone | ⟨j, hOne⟩ := bleInputs_cases (s := s) i
    · rw [hNone]
      exact List.forall_mem_nil _
    · rw [hOne]
      exact List.forall_mem_singleton.mpr (h j (hOne ▸ List.mem_singleton_self j))
  have hBle : (BleUart.machine Conn).run s.ble (bleInputs s i) = ((machine p Conn).next s i).ble :=
    simulates_ble.step s i trivial
  rw [← clientAnswers_step, ← deliveries_step, ← hBle]
  exact (BleUart.machine Conn).observe_balance_of_situations (fun _ _ => ble_balance) s.ble _ hSituations

end Replies

/-! ## Replies in the tag -/

section Tag

variable {p : Platform} {Conn : Type} {s : State p Conn} {env : Env} {dataLength : Nat} {req : Payload}

/-- An NDEF_UPDATED that finds the callback free and a request in the tag. -/
structure Takes (s : State p Conn) (env : Env) (dataLength : Nat) (req : Payload) : Prop where
  inside : s.outOfBounds = false
  idle : s.flash.callback = .idle
  updated : 0 < dataLength
  request : Platform.tagRequest s.flash.ndefMsgBuf = .ok (some req)

def nfcEvent (env : Env) (req : Payload) : LocalInput := .wire ⟨env.uptime, .request .nfc env.rand req⟩

/-- What the tag says after the handler: its reply, or still the command. -/
theorem readInfo_next (hSize : 2 + 19 + appProtoRespMax ≤ p.size) (h : Takes s env dataLength req)
    (hReadable : ¬ FillsReply req.bytes) :
    readInfo ((machine p Conn).next s (.ndefUpdated env dataLength)).flash.ndefMsgBuf.toList =
      answers s.ble.device (nfcEvent env req) := by
  have hMax := (length_reply_iff env s.ble.device.toAppState .nfc req).1
  have hOutput : localMachine.output s.ble.device (nfcEvent env req) = (handleRequest env s.ble.device .nfc req).2 :=
    rfl
  change readInfo (step s (.ndefUpdated env dataLength)).1.flash.ndefMsgBuf.toList = _
  rw [step_of_inside s h.inside, answers, hOutput]
  obtain ⟨hSilent | hLong, hOk⟩ | ⟨file, hReply, hFile, hOk⟩ :=
    @Platform.handleNdef_of_request p env s.ble.device _ _ h.request
  · rw [nfcCallback_of_ok s h.idle h.updated hOk, if_pos hSilent]
    exact readInfo_of_tagRequest h.request
  · exact absurd (hSize.trans_lt hLong) (by rw [Nat.not_lt]; exact Nat.add_le_add_left hMax 21)
  · rw [nfcCallback_of_ok s h.idle h.updated hOk, if_neg hReply]
    refine readInfo_of_carriesReply ?_
    rw [if_pos rfl, hFile]
    exact carriesReply_handleRequest_iff.mpr hReadable

end Tag

/-! ## The program as its clients see it -/

section Transparent

variable {p : Platform} {Conn : Type} {s : State p Conn} {is : List (Input p.size Conn)}

/-- The program follows the plain device along the whole run: over BLE its replies arrive in order,
each once, save the one that still waits, and a reader of the tag finds the reply to its command
until the tag is written again. A reply that fills the buffer cannot be read back. -/
structure Transparent (s : State p Conn) (is : List (Input p.size Conn)) : Prop where
  device : ∀ pre, pre <+: is →
    localMachine.run s.ble.device ((machine p Conn).observe deviceInputs s pre) =
      ((machine p Conn).run s pre).ble.device
  ble : ∀ pre, pre <+: is →
    waiting s.ble ++ (machine p Conn).observe clientAnswers s pre =
      (machine p Conn).observe deliveries s pre ++ waiting ((machine p Conn).run s pre).ble
  nfc : ∀ pre env dataLength req js, pre ++ .ndefUpdated env dataLength :: js <+: is →
    Takes ((machine p Conn).run s pre) env dataLength req → ¬ FillsReply req.bytes → (∀ j ∈ js, LeavesTag j) →
      readInfo ((machine p Conn).run s (pre ++ .ndefUpdated env dataLength :: js)).flash.ndefMsgBuf.toList =
        answers (localMachine.run s.ble.device ((machine p Conn).observe deviceInputs s pre)) (nfcEvent env req)

/-- To clients that wait for their replies the program is the device, however their exchanges overlap. -/
theorem transparent (hSize : 2 + 19 + appProtoRespMax ≤ p.size)
    (h : ∀ q ∈ (machine p Conn).situations s is, PatientBle q.1 q.2) : Transparent s is where
  device pre _ := Program.simulates_device.run trivial pre
  ble pre hPre := by
    obtain ⟨rest, rfl⟩ := hPre
    rw [situations_append, List.forall_mem_append] at h
    have hBalance (t : State p Conn) (j : Input p.size Conn) (hPatient : PatientBle t j) :
        waiting t.ble ++ clientAnswers t j = deliveries t j ++ waiting ((machine p Conn).next t j).ble :=
      balance_next hPatient
    exact (machine p Conn).observe_balance_of_situations hBalance s pre h.1
  nfc pre env dataLength req js _ hTakes hReadable hLeaves := by
    rw [Program.simulates_device.run trivial pre, run_append, run_cons, ndefMsgBuf_run hLeaves]
    exact readInfo_next hSize hTakes hReadable

/-! ## An NFC exchange inside a BLE exchange -/

/-- BLE powers the device on and then locks itself. The second reply is refused once, and while it
waits NFC sends its command and the main loop runs. -/
def overlapping : List (Input lockPlatform.size Unit) :=
  [.received () idleEnv BleReplies.powerOnReq, .retryWork 0, .received () idleEnv lockReq, .retryWork (-22),
    .ndefUpdated idleEnv 20, .loop, .retryWork 0]

theorem patientBle_retryWork {t : State p Conn} {err : Int} (h : ¬ RetryBudget.Abandons t.ble (.retryWork err)) :
    PatientBle t (.retryWork err) := by
  intro j hj
  rw [bleInputs] at hj
  split at hj
  · cases hj
  · obtain rfl := List.mem_singleton.mp hj
    exact h

theorem patientBle_loop (t : State p Conn) : PatientBle t .loop := by
  intro j hj
  rw [bleInputs] at hj
  split at hj <;> cases hj

theorem not_abandons_of_first {t : BleUart.State Conn} (h : t.retryCnt = 0) (j : BleUart.Input Conn) :
    ¬ RetryBudget.Abandons t j := by
  rw [RetryBudget.abandons_iff, BleUart.LastAttempt, h]
  exact fun hAbandons => absurd hAbandons.2 (by decide)

theorem patientBle_overlapping :
    ∀ q ∈ (machine lockPlatform Unit).situations lockState overlapping, PatientBle q.1 q.2 := by
  simp only [overlapping, situations_cons, List.forall_mem_cons]
  refine ⟨?_, ?_, ?_, ?_, ?_, patientBle_loop _, ?_, List.forall_mem_nil _⟩
  · exact List.forall_mem_singleton.mpr fun _ => rfl
  · exact patientBle_retryWork (RetryBudget.not_abandons_of_taken _)
  · exact List.forall_mem_singleton.mpr fun _ => rfl
  · exact patientBle_retryWork (not_abandons_of_first rfl _)
  · exact List.forall_mem_singleton.mpr trivial
  · exact patientBle_retryWork (RetryBudget.not_abandons_of_taken _)

theorem takes_lock (t : State lockPlatform Unit) (hInside : t.outOfBounds = false) (hIdle : t.flash.callback = .idle)
    (hTag : t.flash.ndefMsgBuf = lockTag) : Takes t idleEnv 20 lockReq :=
  ⟨hInside, hIdle, by decide, hTag ▸ tagRequest_lockTag⟩

/-- Both BLE replies are on their way, and the reader finds its own reply when BLE has got the second. -/
theorem transparent_overlapping :
    (waiting lockState.ble ++ (machine lockPlatform Unit).observe clientAnswers lockState overlapping =
        (machine lockPlatform Unit).observe deliveries lockState overlapping ++
          waiting ((machine lockPlatform Unit).run lockState overlapping).ble) ∧
      readInfo ((machine lockPlatform Unit).run lockState overlapping).flash.ndefMsgBuf.toList =
        answers (localMachine.run lockState.ble.device
          ((machine lockPlatform Unit).observe deviceInputs lockState
            (overlapping.take 4))) (nfcEvent idleEnv lockReq) := by
  have hTransparent : Transparent lockState overlapping := transparent (by decide) patientBle_overlapping
  have hTakes : Takes ((machine lockPlatform Unit).run lockState (overlapping.take 4)) idleEnv 20 lockReq :=
    takes_lock _ rfl rfl rfl
  have hReadable : ¬ FillsReply lockReq.bytes := fun hFills => absurd hFills.lists.cmd (by decide)
  have hSplit : overlapping.take 4 ++ .ndefUpdated idleEnv 20 :: [.loop, .retryWork 0] = overlapping := rfl
  have hRead := hTransparent.nfc (overlapping.take 4) idleEnv 20 lockReq [.loop, .retryWork 0]
    (hSplit ▸ List.prefix_rfl) hTakes hReadable
    (List.forall_mem_cons.mpr ⟨trivial, List.forall_mem_singleton.mpr trivial⟩)
  rw [hSplit] at hRead
  exact ⟨hTransparent.ble overlapping List.prefix_rfl, hRead⟩

end Transparent

end IotRange.Transport
