import IotRange.Library.Machine

/-! # Connection references and pairing (ble_uart.c)

The two connection pointers, what their callbacks ask of the Bluetooth stack, and the work item
that starts advertising. A callback that only logs is an input without effect. NULL is `none`, and
`bt_conn_ref` gives back the connection of its callback.
-/
namespace IotRange.Connections
open Machine
set_option autoImplicit false

/-- DK_BTN1_MSK and DK_BTN2_MSK. -/
def keyPasskeyAccept : UInt32 := 1
def keyPasskeyReject : UInt32 := 2

inductive Call (Conn : Type)
  | ref (conn : Conn)
  | unref (conn : Option Conn)
  | authPasskeyConfirm (conn : Option Conn)
  | authCancel (conn : Option Conn)
  | advStart (err : Int)
  deriving DecidableEq

structure State (Conn : Type) where
  currentConn : Option Conn
  authConn : Option Conn
  /-- `adv_work` is submitted. -/
  advWork : Bool

inductive Input (Conn : Type)
  | connected (conn : Conn) (err : UInt8)
  | disconnected (conn : Conn)
  | recycled
  | passkeyConfirm (conn : Conn)
  | cancel (conn : Conn)
  | pairingFailed (conn : Conn)
  | buttonChanged (buttonState hasChanged : UInt32)
  | advWork (err : Int)

section Callbacks

variable {Conn : Type} (s : State Conn)

/-- The static variables, after `ble_uart_init` has called `advertising_start`. -/
def State.boot : State Conn where
  currentConn := none
  authConn := none
  advWork := true

def connected (conn : Conn) (err : UInt8) : State Conn × List (Call Conn) :=
  if err ≠ 0 then (s, []) else ({ s with currentConn := some conn }, [.ref conn])

def disconnected : State Conn × List (Call Conn) :=
  let (s, auth) := if s.authConn.isSome then ({ s with authConn := none }, [Call.unref s.authConn]) else (s, [])
  let (s, current) :=
    if s.currentConn.isSome then ({ s with currentConn := none }, [Call.unref s.currentConn]) else (s, [])
  (s, auth ++ current)

def recycledCb : State Conn × List (Call Conn) := ({ s with advWork := true }, [])

def authPasskeyConfirm (conn : Conn) : State Conn × List (Call Conn) := ({ s with authConn := some conn }, [.ref conn])

def numCompReply (accept : Bool) : State Conn × List (Call Conn) :=
  ({ s with authConn := none },
    [if accept then .authPasskeyConfirm s.authConn else .authCancel s.authConn, .unref s.authConn])

def buttonChanged (buttonState hasChanged : UInt32) : State Conn × List (Call Conn) :=
  let buttons := buttonState &&& hasChanged
  if s.authConn.isSome then
    let (s, accepted) := if buttons &&& keyPasskeyAccept ≠ 0 then numCompReply s true else (s, [])
    let (s, rejected) := if buttons &&& keyPasskeyReject ≠ 0 then numCompReply s false else (s, [])
    (s, accepted ++ rejected)
  else (s, [])

/-- The work item runs only when it is submitted. A failed start is not repeated. -/
def advWorkHandler (err : Int) : State Conn × List (Call Conn) :=
  if s.advWork then ({ s with advWork := false }, [.advStart err]) else (s, [])

def step : Input Conn → State Conn × List (Call Conn)
  | .connected conn err => connected s conn err
  | .disconnected _ => disconnected s
  | .recycled => recycledCb s
  | .passkeyConfirm conn => authPasskeyConfirm s conn
  | .cancel _ => (s, [])
  | .pairingFailed _ => (s, [])
  | .buttonChanged buttonState hasChanged => buttonChanged s buttonState hasChanged
  | .advWork err => advWorkHandler s err

end Callbacks

def machine (Conn : Type) : Machine (State Conn) (Input Conn) (List (Call Conn)) := ⟨step⟩

/-- The calls of a run. -/
def calls {Conn : Type} (is : List (Input Conn)) : List (Call Conn) :=
  (machine Conn).observe (machine Conn).output .boot is

/-! ## What a callback does to the pointers -/

section Pointers

variable {Conn : Type} (s : State Conn)

def Pressed (key buttonState hasChanged : UInt32) : Prop := (buttonState &&& hasChanged) &&& key ≠ 0

instance (key buttonState hasChanged : UInt32) : Decidable (Pressed key buttonState hasChanged) :=
  inferInstanceAs (Decidable (_ ≠ _))

/-- The prompt that a change of the buttons meets is answered by the first key, and NULL by the second. -/
theorem buttonChanged_eq (buttonState hasChanged : UInt32) :
    buttonChanged s buttonState hasChanged =
      if s.authConn.isSome ∧ (Pressed keyPasskeyAccept buttonState hasChanged ∨
          Pressed keyPasskeyReject buttonState hasChanged) then
        ({ s with authConn := none },
          if Pressed keyPasskeyAccept buttonState hasChanged then
            [.authPasskeyConfirm s.authConn, .unref s.authConn] ++
              if Pressed keyPasskeyReject buttonState hasChanged then [.authCancel none, .unref none] else []
          else [.authCancel s.authConn, .unref s.authConn])
      else (s, []) := by
  unfold buttonChanged Pressed
  by_cases hPrompt : s.authConn.isSome = true
  · by_cases hAccept : (buttonState &&& hasChanged) &&& keyPasskeyAccept ≠ 0 <;>
      by_cases hReject : (buttonState &&& hasChanged) &&& keyPasskeyReject ≠ 0 <;>
      simp [hPrompt, hAccept, hReject, numCompReply]
  · simp [hPrompt]

theorem disconnected_eq :
    disconnected s = ({ s with authConn := none, currentConn := none },
      (s.authConn.toList ++ s.currentConn.toList).map fun conn => .unref (some conn)) := by
  obtain ⟨current, auth, work⟩ := s
  cases current <;> cases auth <;> rfl

end Pointers

/-! ## Advertising -/

section Advertising

variable {Conn : Type} {s : State Conn} {i : Input Conn}

theorem advWork_next (hRecycled : i ≠ .recycled) (h : s.advWork = false) :
    ((machine Conn).next s i).advWork = false := by
  obtain ⟨current, auth, work⟩ := s
  obtain rfl := h
  cases i with
  | connected conn err =>
    change (connected _ conn err).1.advWork = false
    unfold connected
    split <;> rfl
  | disconnected =>
    change (disconnected _).1.advWork = false
    rw [disconnected_eq]
  | recycled => exact absurd rfl hRecycled
  | buttonChanged buttonState hasChanged =>
    change (buttonChanged _ buttonState hasChanged).1.advWork = false
    rw [buttonChanged_eq]
    split <;> rfl
  | passkeyConfirm | cancel | pairingFailed | advWork => rfl

theorem advWork_of_advStart {err : Int}
    (h : Call.advStart err ∈ (machine Conn).output s i) : s.advWork = true := by
  obtain ⟨current, auth, work⟩ := s
  cases i with
  | connected conn err' =>
    change _ ∈ (connected _ conn err').2 at h
    unfold connected at h
    split at h <;> simp at h
  | disconnected =>
    change _ ∈ (disconnected _).2 at h
    rw [disconnected_eq] at h
    simp at h
  | buttonChanged buttonState hasChanged =>
    change _ ∈ (buttonChanged _ buttonState hasChanged).2 at h
    rw [buttonChanged_eq] at h
    revert h
    dsimp only
    split
    · split
      · split <;> simp
      · simp
    · simp
  | advWork err' =>
    cases work with
    | true => rfl
    | false => simp [output, machine, step, advWorkHandler] at h
  | passkeyConfirm | recycled | cancel | pairingFailed =>
    simp [output, machine, step, authPasskeyConfirm, recycledCb] at h

end Advertising

/-! ## References -/

section References

/-- The connection whose pointer a callback overwrites: its reference is lost. -/
def overwritten {Conn : Type} (s : State Conn) (i : Input Conn) : Option Conn :=
  match i with
  | .connected _ err => if err = 0 then s.currentConn else none
  | .passkeyConfirm _ => s.authConn
  | _ => none

variable {Conn : Type} [DecidableEq Conn] (conn : Conn)

def pointers (s : State Conn) : Nat :=
  (if s.currentConn = some conn then 1 else 0) + if s.authConn = some conn then 1 else 0

theorem count_ref (c : Conn) : [Call.ref c].count (.ref conn) = if c = conn then 1 else 0 := by
  simp [List.count_cons]

theorem count_unref (c : Conn) : [Call.ref c].count (.unref (some conn)) = 0 := by
  simp

theorem count_disconnected (s : State Conn) :
    pointers conn s + (disconnected s).2.count (.ref conn) =
      (disconnected s).2.count (.unref (some conn)) + pointers conn (disconnected s).1 := by
  rw [disconnected_eq]
  obtain ⟨current, auth, work⟩ := s
  cases current <;> cases auth <;> simp [pointers, List.count_cons]

theorem count_buttonChanged (s : State Conn) (buttonState hasChanged : UInt32) :
    pointers conn s + (buttonChanged s buttonState hasChanged).2.count (.ref conn) =
      (buttonChanged s buttonState hasChanged).2.count (.unref (some conn)) +
        pointers conn (buttonChanged s buttonState hasChanged).1 := by
  rw [buttonChanged_eq]
  obtain ⟨current, auth, work⟩ := s
  split
  · by_cases hAccept : Pressed keyPasskeyAccept buttonState hasChanged <;>
      by_cases hReject : Pressed keyPasskeyReject buttonState hasChanged <;>
      simp [pointers, hAccept, hReject, List.count_cons, Nat.add_comm]
  · simp [pointers]

theorem count_next (s : State Conn) (i : Input Conn) :
    pointers conn s + ((machine Conn).output s i).count (.ref conn) =
      ((machine Conn).output s i).count (.unref (some conn)) + (if overwritten s i = some conn then 1 else 0) +
        pointers conn ((machine Conn).next s i) := by
  cases i with
  | connected c err =>
    change pointers conn s + (connected s c err).2.count _ =
      (connected s c err).2.count _ + _ + pointers conn (connected s c err).1
    by_cases hErr : err = 0
    · have hLost : overwritten s (.connected c err) = s.currentConn := if_pos hErr
      have hConnected : connected s c err = ({ s with currentConn := some c }, [.ref c]) := if_neg (not_not.mpr hErr)
      rw [hLost, hConnected, count_ref, count_unref]
      simp only [pointers, Option.some.injEq]
      omega
    · have hNone : overwritten s (.connected c err) = none := if_neg hErr
      have hFailed : connected s c err = (s, []) := if_pos hErr
      rw [hNone, hFailed]
      simp
  | disconnected => exact count_disconnected conn s
  | passkeyConfirm c =>
    change pointers conn s + (authPasskeyConfirm s c).2.count _ =
      (authPasskeyConfirm s c).2.count _ + _ + pointers conn (authPasskeyConfirm s c).1
    have hLost : overwritten s (.passkeyConfirm c) = s.authConn := rfl
    rw [hLost, authPasskeyConfirm, count_ref, count_unref]
    simp only [pointers, Option.some.injEq]
    omega
  | buttonChanged buttonState hasChanged => exact count_buttonChanged conn s buttonState hasChanged
  | advWork err =>
    change pointers conn s + (advWorkHandler s err).2.count _ =
      (advWorkHandler s err).2.count _ + _ + pointers conn (advWorkHandler s err).1
    unfold advWorkHandler
    split <;> simp [pointers, overwritten]
  | recycled | cancel | pairingFailed =>
    change pointers conn s + 0 = 0 + 0 + pointers conn s
    omega

def losses (is : List (Input Conn)) : Nat :=
  ((machine Conn).situations .boot is).countP fun p => overwritten p.1 p.2 = some conn

/-- Each reference taken has been given back, has been lost, or belongs to a pointer. -/
theorem count_calls (is : List (Input Conn)) :
    (calls is).count (.ref conn) =
      (calls is).count (.unref (some conn)) + losses conn is + pointers conn ((machine Conn).run .boot is) := by
  have hBalance := (machine Conn).count_balance (machine Conn).output (.ref conn) (.unref (some conn)) (pointers conn)
    (count_next conn) .boot is
  have hBoot : pointers conn (State.boot : State Conn) = 0 := rfl
  rw [hBoot, Nat.zero_add] at hBalance
  exact hBalance

theorem losses_concat (is : List (Input Conn)) (i : Input Conn) :
    losses conn (is ++ [i]) =
      losses conn is + if overwritten ((machine Conn).run .boot is) i = some conn then 1 else 0 := by
  simp [losses, List.countP_cons]

theorem losses_append_le (is js : List (Input Conn)) : losses conn is ≤ losses conn (is ++ js) := by
  rw [losses, losses, situations_append, List.countP_append]
  exact Nat.le_add_right _ _

theorem losses_eq_zero_iff (is : List (Input Conn)) :
    (∀ conn, losses conn is = 0) ↔ ∀ p ∈ (machine Conn).situations .boot is, overwritten p.1 p.2 = none := by
  simp only [losses, List.countP_eq_zero, decide_eq_true_eq]
  constructor
  · intro h p hp
    exact Option.eq_none_iff_forall_ne_some.mpr fun conn => h conn p hp
  · intro h conn p hp
    rw [h p hp]
    exact nofun

end References

/-! ## The one connection object -/

section Recycling

variable {Conn : Type} [DecidableEq Conn] {is js : List (Input Conn)}

/-- The stack has one connection object, and recycles it only when nothing refers to it. -/
def RecyclesUnreferenced (is : List (Input Conn)) : Prop :=
  ∀ pre, pre ++ [.recycled] <+: is → ∀ conn, (calls pre).count (.ref conn) ≤ (calls pre).count (.unref (some conn))

theorem unreferenced_after_disconnect_iff (c : Conn) (is : List (Input Conn)) :
    (∀ conn, (calls (is ++ [.disconnected c])).count (.ref conn) ≤
      (calls (is ++ [.disconnected c])).count (.unref (some conn))) ↔ ∀ conn, losses conn is = 0 := by
  refine forall_congr' fun conn => ?_
  have hLosses : losses conn (is ++ [.disconnected c]) = losses conn is := losses_concat conn is (.disconnected c)
  have hPointers : pointers conn ((machine Conn).run .boot (is ++ [.disconnected c])) = 0 := by
    rw [run_append]
    change pointers conn (disconnected _).1 = 0
    rw [disconnected_eq]
    rfl
  rw [count_calls, hLosses, hPointers]
  omega

omit [DecidableEq Conn] in
theorem advertises_of_recycled (s : State Conn) :
    ((machine Conn).next s .recycled).advWork = true ∧
      ∀ err, .advStart err ∈ (machine Conn).output ((machine Conn).next s .recycled) (.advWork err) :=
  ⟨rfl, fun _ => List.mem_singleton_self _⟩

/-- After a disconnect the object can be recycled exactly when no pointer has been overwritten, and
once it is recycled the work item that starts advertising is submitted. -/
theorem recyclesUnreferenced_iff (c : Conn) (hContract : RecyclesUnreferenced is) :
    (RecyclesUnreferenced (is ++ [.disconnected c, .recycled]) ↔
      ∀ p ∈ (machine Conn).situations .boot is, overwritten p.1 p.2 = none) ∧
    ((machine Conn).run .boot (is ++ [.disconnected c, .recycled])).advWork = true ∧
      ∀ err, .advStart err ∈
        (machine Conn).output ((machine Conn).run .boot (is ++ [.disconnected c, .recycled])) (.advWork err) := by
  have hSplit : is ++ [.disconnected c, .recycled] = (is ++ [.disconnected c]) ++ [.recycled] := by simp
  constructor
  · rw [← losses_eq_zero_iff, ← unreferenced_after_disconnect_iff c, hSplit]
    constructor
    · intro h
      exact h _ List.prefix_rfl
    · intro h pre hPre
      rw [List.prefix_concat_iff, List.prefix_concat_iff] at hPre
      obtain hLast | hBefore | hPre := hPre
      · obtain ⟨rfl, -⟩ := List.append_inj' hLast rfl
        exact h
      · cases (List.append_inj' hBefore rfl).2
      · exact hContract pre hPre
  · rw [hSplit, run_append]
    exact advertises_of_recycled _

/-- Once a pointer has been overwritten the device never advertises again. -/
theorem stays_dark (hContract : RecyclesUnreferenced (is ++ js))
    (hOverwritten : ∃ p ∈ (machine Conn).situations .boot is, overwritten p.1 p.2 ≠ none)
    (hIdle : ((machine Conn).run .boot is).advWork = false) (err : Int) :
    .advStart err ∉ (machine Conn).observe (machine Conn).output ((machine Conn).run .boot is) js := by
  have hNoRecycled : ∀ i ∈ js, i ≠ .recycled := by
    rintro i hi rfl
    obtain ⟨mid, rest, rfl⟩ := List.append_of_mem hi
    have hPre : (is ++ mid) ++ [.recycled] <+: is ++ (mid ++ .recycled :: rest) := ⟨rest, by simp⟩
    obtain ⟨p, hp, hLost⟩ := hOverwritten
    refine hLost ((losses_eq_zero_iff is).mp (fun conn => ?_) p hp)
    have hFree := hContract _ hPre conn
    have hCount := count_calls conn (is ++ mid)
    have hLe := losses_append_le conn is mid
    omega
  intro hStart
  obtain ⟨mid, i, rest, rfl, hCall⟩ := (machine Conn).mem_observe_iff.mp hStart
  have hStill : ((machine Conn).run ((machine Conn).run .boot is) mid).advWork = false := by
    refine (machine Conn).run_invariant_of (I := fun s => s.advWork = false) (P := fun j => j ≠ .recycled)
      (fun _ _ hj hs => advWork_next hj hs) _ mid (fun j hj => hNoRecycled j ?_) hIdle
    exact List.mem_append_left _ hj
  exact Bool.noConfusion (hStill.symm.trans (advWork_of_advStart hCall))

/-- A cancelled prompt leaves its pointer to the next one. -/
def repairing : List (Input Unit) :=
  [.advWork 0, .connected () 0, .passkeyConfirm (), .cancel (), .passkeyConfirm (), .disconnected ()]

theorem stays_dark_repairing :
    .advStart 0 ∉ (machine Unit).observe (machine Unit).output ((machine Unit).run .boot repairing) [.advWork 0] := by
  refine stays_dark (fun pre hPre => ?_) ?_ rfl 0
  · have hMem : Input.recycled ∈ repairing ++ [.advWork 0] := hPre.subset (by simp)
    exact absurd hMem (by simp [repairing])
  · refine ⟨(⟨some (), some (), false⟩, .passkeyConfirm ()), (machine Unit).mem_situations_iff.mpr
      ⟨[.advWork 0, .connected () 0, .passkeyConfirm (), .cancel ()], [.disconnected ()], rfl, rfl⟩, ?_⟩
    exact Option.some_ne_none ()

/-- A session whose prompt is answered. -/
def session : List (Input Unit) := [.advWork 0, .connected () 0, .passkeyConfirm (), .buttonChanged 1 1]

theorem recyclesUnreferenced_session :
    RecyclesUnreferenced (session ++ [.disconnected (), .recycled]) ∧
      .advStart 0 ∈ (machine Unit).output ((machine Unit).run .boot (session ++ [.disconnected (), .recycled]))
        (.advWork 0) := by
  have hContract : RecyclesUnreferenced session := fun pre hPre => by
    have hMem : Input.recycled ∈ session := hPre.subset (by simp)
    exact absurd hMem (by simp [session])
  obtain ⟨hRecycles, -, hStarts⟩ := recyclesUnreferenced_iff () hContract
  refine ⟨hRecycles.mpr ?_, hStarts 0⟩
  simp only [session, situations_cons, List.forall_mem_cons]
  exact ⟨rfl, rfl, rfl, rfl, List.forall_mem_nil _⟩

end Recycling

/-! ## Pairing prompts -/

section Pairing

variable {Conn : Type}

/-- An input that neither answers nor replaces nor withdraws a prompt. -/
def KeepsPrompt (i : Input Conn) : Prop :=
  match i with
  | .passkeyConfirm _ | .disconnected _ => False
  | .buttonChanged buttonState hasChanged =>
    ¬ (Pressed keyPasskeyAccept buttonState hasChanged ∨ Pressed keyPasskeyReject buttonState hasChanged)
  | .connected _ _ | .recycled | .cancel _ | .pairingFailed _ | .advWork _ => True

/-- The newest prompt is for the connection, and since then no key has been pressed and no connection lost. -/
def PromptOpen (conn : Conn) (is : List (Input Conn)) : Prop :=
  History.Since (fun _ i => i = .passkeyConfirm conn) (fun _ i => KeepsPrompt i) is

theorem authConn_next (s : State Conn) (i : Input Conn) :
    ((machine Conn).next s i).authConn = s.authConn ∧ KeepsPrompt i ∨
      (∃ conn, i = .passkeyConfirm conn ∧ ((machine Conn).next s i).authConn = some conn) ∨
      ((machine Conn).next s i).authConn = none ∧ ¬ KeepsPrompt i := by
  cases i with
  | connected conn err =>
    refine .inl ⟨?_, trivial⟩
    change (connected s conn err).1.authConn = s.authConn
    unfold connected
    split <;> rfl
  | disconnected =>
    refine .inr (.inr ⟨?_, not_false⟩)
    change (disconnected s).1.authConn = none
    rw [disconnected_eq]
  | passkeyConfirm conn => exact .inr (.inl ⟨conn, rfl, rfl⟩)
  | buttonChanged buttonState hasChanged =>
    change (buttonChanged s buttonState hasChanged).1.authConn = _ ∧ _ ∨ _ ∨
      (buttonChanged s buttonState hasChanged).1.authConn = _ ∧ _
    rw [buttonChanged_eq]
    by_cases hPressed : Pressed keyPasskeyAccept buttonState hasChanged ∨
      Pressed keyPasskeyReject buttonState hasChanged
    · refine .inr (.inr ⟨?_, not_not.mpr hPressed⟩)
      split
      · rfl
      · rename_i hNone
        exact Option.not_isSome_iff_eq_none.mp fun hSome => hNone ⟨hSome, hPressed⟩
    · refine .inl ⟨?_, hPressed⟩
      rw [if_neg fun h => hPressed h.2]
  | advWork err =>
    refine .inl ⟨?_, trivial⟩
    change (advWorkHandler s err).1.authConn = s.authConn
    unfold advWorkHandler
    split <;> rfl
  | recycled | cancel | pairingFailed => exact .inl ⟨rfl, trivial⟩

/-- `auth_conn` is the connection of the prompt that is open. -/
theorem authConn_run_iff (conn : Conn) (is : List (Input Conn)) :
    ((machine Conn).run .boot is).authConn = some conn ↔ PromptOpen conn is := by
  constructor
  · refine History.since_of_raised (fun is => ((machine Conn).run .boot is).authConn = some conn) nofun ?_ is
    intro is i hNext
    rw [run_append, run_cons, run_nil] at hNext
    obtain ⟨hSame, hKeeps⟩ | ⟨c, rfl, hPrompt⟩ | ⟨hNone, -⟩ := authConn_next ((machine Conn).run .boot is) i
    · exact .inr ⟨hSame.symm.trans hNext, hKeeps⟩
    · obtain rfl := Option.some.inj (hPrompt.symm.trans hNext)
      exact .inl rfl
    · cases hNone.symm.trans hNext
  · refine History.raised_of_since (fun is => ((machine Conn).run .boot is).authConn = some conn) ?_ ?_
    · rintro is i rfl
      rw [run_append]
      rfl
    · intro is i hOpen hKeeps
      rw [run_append, run_cons, run_nil]
      obtain ⟨hSame, -⟩ | ⟨c, rfl, -⟩ | ⟨-, hEnds⟩ := authConn_next ((machine Conn).run .boot is) i
      · exact hSame.trans hOpen
      · exact hKeeps.elim
      · exact absurd hKeeps hEnds

theorem mem_buttonChanged_iff {s : State Conn} {buttonState hasChanged : UInt32} {call : Call Conn} :
    call ∈ (buttonChanged s buttonState hasChanged).2 ↔ ∃ conn, s.authConn = some conn ∧
      (Pressed keyPasskeyAccept buttonState hasChanged ∧
          (call = .authPasskeyConfirm (some conn) ∨ call = .unref (some conn)) ∨
        ¬ Pressed keyPasskeyAccept buttonState hasChanged ∧ Pressed keyPasskeyReject buttonState hasChanged ∧
          (call = .authCancel (some conn) ∨ call = .unref (some conn)) ∨
        Pressed keyPasskeyAccept buttonState hasChanged ∧ Pressed keyPasskeyReject buttonState hasChanged ∧
          (call = .authCancel none ∨ call = .unref none)) := by
  obtain ⟨current, auth, work⟩ := s
  rw [buttonChanged_eq]
  cases auth with
  | none => simp
  | some conn =>
    by_cases hAccept : Pressed keyPasskeyAccept buttonState hasChanged <;>
      by_cases hReject : Pressed keyPasskeyReject buttonState hasChanged <;> simp [hAccept, hReject, or_assoc]

/-- A call that answers a prompt, or hands over NULL. -/
def Call.Settles (call : Call Conn) : Prop :=
  match call with
  | .authPasskeyConfirm _ | .authCancel _ | .unref none => True
  | .ref _ | .unref (some _) | .advStart _ => False

/-- Only the buttons settle anything. -/
theorem button_of_settles {s : State Conn} {i : Input Conn} {call : Call Conn}
    (h : call ∈ (machine Conn).output s i) (hSettles : call.Settles) :
    ∃ buttonState hasChanged, i = .buttonChanged buttonState hasChanged := by
  cases i with
  | buttonChanged buttonState hasChanged => exact ⟨buttonState, hasChanged, rfl⟩
  | connected conn err =>
    change call ∈ (connected s conn err).2 at h
    unfold connected at h
    split at h
    · cases h
    · obtain rfl := List.mem_singleton.mp h
      exact hSettles.elim
  | disconnected =>
    change call ∈ (disconnected s).2 at h
    rw [disconnected_eq] at h
    obtain ⟨conn, -, rfl⟩ := List.mem_map.mp h
    exact hSettles.elim
  | passkeyConfirm =>
    obtain rfl := List.mem_singleton.mp h
    exact hSettles.elim
  | advWork err =>
    change call ∈ (advWorkHandler s err).2 at h
    unfold advWorkHandler at h
    split at h
    · obtain rfl := List.mem_singleton.mp h
      exact hSettles.elim
    · cases h
  | recycled | cancel | pairingFailed => cases h

/-- The calls that settle something, by the prompt that is open and the keys. -/
theorem settles_iff {is : List (Input Conn)} {i : Input Conn} {call : Call Conn} (hSettles : call.Settles) :
    call ∈ (machine Conn).output ((machine Conn).run .boot is) i ↔
      ∃ conn buttonState hasChanged, PromptOpen conn is ∧ i = .buttonChanged buttonState hasChanged ∧
        (Pressed keyPasskeyAccept buttonState hasChanged ∧ call = .authPasskeyConfirm (some conn) ∨
          ¬ Pressed keyPasskeyAccept buttonState hasChanged ∧ Pressed keyPasskeyReject buttonState hasChanged ∧
            call = .authCancel (some conn) ∨
          Pressed keyPasskeyAccept buttonState hasChanged ∧ Pressed keyPasskeyReject buttonState hasChanged ∧
            (call = .authCancel none ∨ call = .unref none)) := by
  have hHeld (conn : Conn) : call ≠ .unref (some conn) := by
    rintro rfl
    exact hSettles
  constructor
  · intro h
    obtain ⟨buttonState, hasChanged, rfl⟩ := button_of_settles h hSettles
    obtain ⟨conn, hConn, hKeys⟩ := mem_buttonChanged_iff.mp h
    refine ⟨conn, buttonState, hasChanged, (authConn_run_iff conn is).mp hConn, rfl, ?_⟩
    simpa only [hHeld conn, or_false] using hKeys
  · rintro ⟨conn, buttonState, hasChanged, hOpen, rfl, hKeys⟩
    refine mem_buttonChanged_iff.mpr ⟨conn, (authConn_run_iff conn is).mpr hOpen, ?_⟩
    simpa only [hHeld conn, or_false] using hKeys

/-- A prompt is answered by a key while it is open. The second of two keys pressed at once hands
over NULL. -/
theorem answers_iff (is : List (Input Conn)) (i : Input Conn) (answered : Option Conn) :
    (.authPasskeyConfirm answered ∈ (machine Conn).output ((machine Conn).run .boot is) i ↔
      ∃ conn buttonState hasChanged, PromptOpen conn is ∧ i = .buttonChanged buttonState hasChanged ∧
        Pressed keyPasskeyAccept buttonState hasChanged ∧ answered = some conn) ∧
    (.authCancel answered ∈ (machine Conn).output ((machine Conn).run .boot is) i ↔
      ∃ conn buttonState hasChanged, PromptOpen conn is ∧ i = .buttonChanged buttonState hasChanged ∧
        Pressed keyPasskeyReject buttonState hasChanged ∧
        answered = if Pressed keyPasskeyAccept buttonState hasChanged then none else some conn) ∧
    (.unref none ∈ (machine Conn).output ((machine Conn).run .boot is) i ↔
      ∃ conn buttonState hasChanged, PromptOpen conn is ∧ i = .buttonChanged buttonState hasChanged ∧
        Pressed keyPasskeyAccept buttonState hasChanged ∧ Pressed keyPasskeyReject buttonState hasChanged) := by
  have hConfirm : Call.Settles (.authPasskeyConfirm answered) := trivial
  have hCancel : Call.Settles (.authCancel answered) := trivial
  have hNull : Call.Settles (.unref (none : Option Conn)) := trivial
  rw [settles_iff hConfirm, settles_iff hCancel, settles_iff hNull]
  refine ⟨by simp, ?_, by simp⟩
  refine exists_congr fun conn => exists_congr fun buttonState => exists_congr fun hasChanged => ?_
  by_cases hAccept : Pressed keyPasskeyAccept buttonState hasChanged <;> simp [hAccept]

end Pairing

end IotRange.Connections
