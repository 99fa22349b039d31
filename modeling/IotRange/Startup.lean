import IotRange.Registry
import IotRange.Sessions
import IotRange.ShellCmd

/-! # The end of the start (main.c)

The emulation and the shell are up before `app_auth_init` and `app_fields_init`, so requests in the
tag and shell commands may meet the static variables. BLE comes last.
-/
namespace IotRange.Startup
open AppAuth AppFields AppProtocol AppConfig Device Sessions ChallengeResponse
set_option autoImplicit false

/-- Where `main` is, from `nfc_t4t_emulation_start` on. -/
inductive Phase
  | emulating
  | authReady
  | ready
  deriving DecidableEq

structure State where
  phase : Phase
  device : Device

/-- `initialise` is the next of the two calls of `main`. -/
inductive Input
  | initialise
  | nfc (env : Env) (req : Payload)
  | call (c : SetterCall)
  | configGet (env : Env)

def State.static : State := ⟨.emulating, ⟨⟨Store.static, Auth.static⟩, OtaState.static⟩⟩

def initialise (s : State) : State :=
  match s.phase with
  | .emulating => ⟨.authReady, { s.device with auth := appAuthInit s.device.auth }⟩
  | .authReady => ⟨.ready, { s.device with fields := appFieldsInit s.device.fields }⟩
  | .ready => s

def step (s : State) : Input → State × List UInt8
  | .initialise => (initialise s, [])
  | .nfc env req => (⟨s.phase, (handleRequest env s.device .nfc req).1⟩, (handleRequest env s.device .nfc req).2)
  | .call c => (⟨s.phase, { s.device with fields := c.apply s.device.fields }⟩, [])
  | .configGet env => (⟨s.phase, (ShellCmd.cmdConfigGet env s.device).1⟩, [])

def machine : Machine State Input (List UInt8) := ⟨step⟩

section Step

variable (s : State)

@[simp] theorem next_initialise : machine.next s .initialise = initialise s := rfl

@[simp] theorem next_nfc (env : Env) (req : Payload) :
    machine.next s (.nfc env req) =
      ⟨s.phase, Device.machine.next s.device ⟨env.uptime, .request .nfc env.rand req⟩⟩ := rfl

@[simp] theorem next_call (c : SetterCall) :
    machine.next s (.call c) = ⟨s.phase, { s.device with fields := c.apply s.device.fields }⟩ := rfl

@[simp] theorem next_configGet (env : Env) :
    machine.next s (.configGet env) = ⟨s.phase, { s.device with fields := appFieldSetUnixtime s.device.fields 0 }⟩ := by
  change (⟨s.phase, (ShellCmd.cmdConfigGet env s.device).1⟩ : State) = _
  rw [ShellCmd.cmdConfigGet_eq]

end Step

def IsNfc : Input → Prop
  | .nfc _ _ => True
  | .initialise | .call _ | .configGet _ => False

instance : DecidablePred IsNfc := fun i => by cases i <;> unfold IsNfc <;> infer_instance

/-! ## A start that no reader disturbs -/

/-- Before `app_fields_init` the shell may have set anything but the time; afterwards the store is the
one of `boot` with some setters called. -/
structure Undisturbed (s : State) : Prop where
  auth : s.device.auth = if s.phase = .emulating then Auth.static else appAuthInit Auth.static
  ota : s.device.ota = OtaState.static
  unixtime : s.device.fields.unixtime = 0
  fields : s.phase = .ready → ∃ cs : List SetterCall, s.device.fields = cs.foldl (fun f c => c.apply f) boot.fields

theorem undisturbed_initialise {s : State} (h : Undisturbed s) : Undisturbed (initialise s) := by
  obtain ⟨phase, ⟨⟨f, a⟩, ota⟩⟩ := s
  obtain ⟨hAuth, hOta, hTime, hFields⟩ := h
  cases phase with
  | emulating => exact ⟨congrArg appAuthInit hAuth, hOta, hTime, nofun⟩
  | authReady =>
    refine ⟨hAuth, hOta, hTime, fun _ => ⟨[.battery f.battery, .temperature f.temperature, .distance f.distance,
      .position f.position], ?_⟩⟩
    have hZero : f.unixtime = 0 := hTime
    change appFieldsInit f = _
    rw [appFieldsInit, hZero]
    rfl
  | ready => exact ⟨hAuth, hOta, hTime, hFields⟩

theorem undisturbed_next {s : State} (i : Input) (hQuiet : ¬ IsNfc i) (h : Undisturbed s) :
    Undisturbed (machine.next s i) := by
  obtain ⟨hAuth, hOta, hTime, hFields⟩ := h
  cases i with
  | initialise => exact undisturbed_initialise ⟨hAuth, hOta, hTime, hFields⟩
  | nfc env req => exact absurd trivial hQuiet
  | call c =>
    rw [next_call]
    refine ⟨hAuth, hOta, ?_, fun hReady => ?_⟩
    · cases c <;> exact hTime
    · obtain ⟨cs, hCalls⟩ := hFields hReady
      exact ⟨cs ++ [c], by rw [List.foldl_append, ← hCalls]; rfl⟩
  | configGet env =>
    have hSame : appFieldSetUnixtime s.device.fields 0 = s.device.fields := by
      rw [appFieldSetUnixtime, ← hTime]
    rw [next_configGet, hSame]
    exact ⟨hAuth, hOta, hTime, hFields⟩

/-- Without a reader at the tag the start ends in the device that has booted, up to setters that the shell calls. -/
theorem boots_of_quiet {is : List Input} (hQuiet : ∀ i ∈ is, ¬ IsNfc i)
    (hReady : (machine.run .static is).phase = .ready) :
    ∃ cs : List SetterCall, (machine.run .static is).device = localMachine.run boot (cs.map .call) := by
  have hStatic : Undisturbed .static := ⟨rfl, rfl, rfl, nofun⟩
  obtain ⟨hAuth, hOta, -, hFields⟩ := machine.run_invariant_of (I := Undisturbed) (P := fun i => ¬ IsNfc i)
    (fun _ i hi hs => undisturbed_next i hi hs) .static is hQuiet hStatic
  obtain ⟨cs, hCalls⟩ := hFields hReady
  have hRun (cs : List SetterCall) (d : Device) :
      localMachine.run d (cs.map .call) = { d with fields := cs.foldl (fun f c => c.apply f) d.fields } := by
    induction cs generalizing d with
    | nil => rfl
    | cons c cs ih =>
      rw [List.map_cons, Machine.run_cons, localMachine_next_call, ih]
      rfl
  refine ⟨cs, ?_⟩
  rw [hRun, ← hCalls]
  generalize machine.run .static is = s at hAuth hOta hReady
  obtain ⟨phase, ⟨⟨f, a⟩, ota⟩⟩ := s
  obtain rfl : phase = .ready := hReady
  obtain rfl : a = appAuthInit Auth.static := hAuth
  obtain rfl : ota = OtaState.static := hOta
  rfl

/-- `config set battery 40` before either call, `config set distance 7` between them. -/
def earlyBattery : List Input := [.call (.battery 40)]

def lateDistance : List Input := [.call (.distance 7)]

theorem boots_of_quiet_battery :
    ∃ cs : List SetterCall,
      (machine.run .static (earlyBattery ++ .initialise :: lateDistance ++ [.initialise])).device =
      localMachine.run boot (cs.map .call) :=
  boots_of_quiet (by decide) rfl

/-! ## What a reader can leave behind -/

section Reader

variable {s : State} {i : Input}

/-- All but the sensors, the time, the password and the NFC session is as after `boot`. -/
structure LikeBoot (d : Device) : Prop where
  fields : d.fields =
    { boot.fields with
      battery := d.fields.battery
      temperature := d.fields.temperature
      distance := d.fields.distance
      position := d.fields.position
      unixtime := d.fields.unixtime }
  ota : d.ota = OtaState.static
  ble : session d.auth .ble = session boot.auth .ble

/-- What no input reaches before BLE is up. -/
structure BleUntouched (d : Device) : Prop where
  ota : d.ota = OtaState.static
  ble : session d.auth .ble = session Auth.static .ble

theorem session_ble_nfc (d : Device) (env : Env) (req : Payload) :
    session (Device.machine.next d ⟨env.uptime, .request .nfc env.rand req⟩).auth .ble = session d.auth .ble := by
  rw [auth_next_of_request rfl]
  exact (acts_processAppPayload env d.toAppState .nfc req appProtoRespMax).frame .ble (by decide)

theorem session_appAuthInit (a : Auth) (c : Channel) : session (appAuthInit a) c = session a c := by
  cases c <;> rfl

theorem passwordHash_appAuthInit (a : Auth) : (appAuthInit a).passwordHash = defaultPasswordHash := rfl

theorem initialise_emulating (d : Device) :
    initialise ⟨.emulating, d⟩ = ⟨.authReady, { d with auth := appAuthInit d.auth }⟩ := rfl

theorem initialise_authReady (d : Device) :
    initialise ⟨.authReady, d⟩ = ⟨.ready, { d with fields := appFieldsInit d.fields }⟩ := rfl

theorem bleUntouched_next (i : Input) (h : BleUntouched s.device) : BleUntouched (machine.next s i).device := by
  cases i with
  | initialise =>
    obtain ⟨phase, d⟩ := s
    cases phase with
    | emulating =>
      rw [next_initialise, initialise_emulating]
      exact ⟨h.ota, (session_appAuthInit d.auth .ble).trans h.ble⟩
    | authReady =>
      rw [next_initialise, initialise_authReady]
      exact ⟨h.ota, h.ble⟩
    | ready => exact h
  | nfc env req => exact ⟨h.ota, (session_ble_nfc s.device env req).trans h.ble⟩
  | call c => exact ⟨h.ota, h.ble⟩
  | configGet env =>
    rw [next_configGet]
    exact ⟨h.ota, h.ble⟩

theorem bleUntouched_run (is : List Input) : BleUntouched (machine.run .static is).device :=
  machine.run_invariant (I := fun s => BleUntouched s.device) (fun _ i h => bleUntouched_next i h) .static is ⟨rfl, rfl⟩

theorem phase_next (h : i ≠ .initialise) : (machine.next s i).phase = s.phase := by
  cases i with
  | initialise => exact absurd rfl h
  | nfc | call => rfl
  | configGet env => rw [next_configGet]

theorem phase_run {is : List Input} (h : ∀ i ∈ is, i ≠ .initialise) : (machine.run s is).phase = s.phase :=
  machine.run_invariant_of (I := fun t => t.phase = s.phase) (P := fun i => i ≠ .initialise)
    (fun _ _ hi ht => (phase_next hi).trans ht) s is h rfl

def ChangesPwd : Input → Prop
  | .nfc _ req => IsAuth authSubcmdChangePwd req.bytes
  | .initialise | .call _ | .configGet _ => False

theorem passwordHash_next (hChange : ¬ ChangesPwd i) (h : s.device.auth.passwordHash = defaultPasswordHash) :
    (machine.next s i).device.auth.passwordHash = defaultPasswordHash := by
  cases i with
  | initialise =>
    obtain ⟨phase, d⟩ := s
    cases phase with
    | emulating =>
      rw [next_initialise, initialise_emulating]
      exact passwordHash_appAuthInit d.auth
    | authReady | ready => exact h
  | nfc env req =>
    have hHash := Registry.passwordHash_request env s.device.toAppState .nfc req
    rw [next_nfc, auth_next_of_request rfl]
    apply List.Vector.toList_injective
    refine hHash.trans ?_
    unfold Registry.newHash
    split
    · rw [if_neg fun hBoth => hChange hBoth.1]
      split
      · rfl
      · exact congrArg List.Vector.toList h
    · exact congrArg List.Vector.toList h
  | call c => exact h
  | configGet env =>
    rw [next_configGet]
    exact h

/-- Whatever a reader and the shell do meanwhile, `main` goes on like a device that has booted, with
the default password unless CHANGE_PWD came between its two calls. -/
theorem likeBoot_of_start {early mid : List Input} (hEarly : ∀ i ∈ early, i ≠ .initialise)
    (hMid : ∀ i ∈ mid, i ≠ .initialise) :
    let d := (machine.run .static (early ++ .initialise :: mid ++ [.initialise])).device
    LikeBoot d ∧ ((∀ i ∈ mid, ¬ ChangesPwd i) → d.auth.passwordHash = defaultPasswordHash) := by
  have hFirst : (machine.run .static early).phase = .emulating := phase_run hEarly
  have hUntouched := bleUntouched_run (early ++ .initialise :: mid)
  rw [Machine.run_append, Machine.run_append, Machine.run_cons, Machine.run_cons, Machine.run_nil, next_initialise,
    next_initialise]
  rw [Machine.run_append, Machine.run_cons, next_initialise] at hUntouched
  generalize machine.run .static early = s at hFirst hUntouched
  obtain ⟨phase, d⟩ := s
  obtain rfl : phase = .emulating := hFirst
  rw [initialise_emulating] at hUntouched ⊢
  have hSecond : (machine.run ⟨.authReady, { d with auth := appAuthInit d.auth }⟩ mid).phase = .authReady :=
    phase_run hMid
  have hHash : (∀ i ∈ mid, ¬ ChangesPwd i) →
      (machine.run ⟨.authReady, { d with auth := appAuthInit d.auth }⟩ mid).device.auth.passwordHash =
        defaultPasswordHash :=
    fun hChange => machine.run_invariant_of (I := fun s => s.device.auth.passwordHash = defaultPasswordHash)
      (P := fun i => ¬ ChangesPwd i) (fun _ _ hi hs => passwordHash_next hi hs) _ mid hChange
      (passwordHash_appAuthInit d.auth)
  generalize machine.run ⟨.authReady, { d with auth := appAuthInit d.auth }⟩ mid = s at hSecond hHash hUntouched ⊢
  obtain ⟨phase, d⟩ := s
  obtain rfl : phase = .authReady := hSecond
  rw [initialise_authReady]
  exact ⟨⟨rfl, hUntouched.ota, hUntouched.ble.trans (session_appAuthInit Auth.static .ble).symm⟩, hHash⟩

theorem call_ne_initialise (c : SetterCall) : ∀ i ∈ [Input.call c], i ≠ .initialise := by
  rintro i hi
  obtain rfl := List.mem_singleton.mp hi
  exact nofun

/-- A reader asks for a nonce before either call, and the shell sets the battery. -/
def earlyNonce : List Input := [.call (.battery 40), .nfc ⟨1, List.Vector.replicate 8 1⟩ nonceRequest]

/-- Between the calls it unlocks NFC with the default password and powers the device on. -/
def latePowerOn : List Input :=
  [.nfc ⟨2, List.Vector.replicate 8 0⟩ (tokenRequest (expectedToken boot.auth (List.Vector.replicate 8 1))),
    .call (.distance 7), .nfc ⟨3, List.Vector.replicate 8 0⟩ ⟨[0x04, 0x01, 0x00], by decide⟩]

theorem ne_initialise_earlyNonce : ∀ i ∈ earlyNonce, i ≠ .initialise := by
  simp only [earlyNonce, List.forall_mem_cons]
  refine ⟨?_, ?_, List.forall_mem_nil _⟩
  all_goals
    intro hInput
    cases hInput

theorem ne_initialise_latePowerOn : ∀ i ∈ latePowerOn, i ≠ .initialise ∧ ¬ ChangesPwd i := by
  simp only [latePowerOn, List.forall_mem_cons]
  refine ⟨⟨?_, ?_⟩, ⟨?_, not_false⟩, ⟨?_, ?_⟩, List.forall_mem_nil _⟩
  · intro hInput
    cases hInput
  · intro hChange
    exact absurd ((isToken_tokenRequest _).1.unique hChange) (by decide)
  · intro hInput
    cases hInput
  · intro hInput
    cases hInput
  · intro hChange
    cases hChange

theorem likeBoot_of_start_powerOn :
    LikeBoot (machine.run .static (earlyNonce ++ .initialise :: latePowerOn ++ [.initialise])).device ∧
      (machine.run .static (earlyNonce ++ .initialise :: latePowerOn ++ [.initialise])).device.auth.passwordHash =
        defaultPasswordHash := by
  have hLike := likeBoot_of_start ne_initialise_earlyNonce fun i hi => (ne_initialise_latePowerOn i hi).1
  exact ⟨hLike.1, hLike.2 fun i hi => (ne_initialise_latePowerOn i hi).2⟩

end Reader

/-! ## A session from before the password -/

section ZeroKey

variable {s : State} {i : Input}

theorem session_next_of_not_nfc (h : ¬ IsNfc i) :
    session (machine.next s i).device.auth .nfc = session s.device.auth .nfc := by
  cases i with
  | initialise =>
    obtain ⟨phase, d⟩ := s
    cases phase with
    | emulating =>
      rw [next_initialise, initialise_emulating]
      exact session_appAuthInit d.auth .nfc
    | authReady | ready => rfl
  | nfc => exact absurd trivial h
  | call c => rfl
  | configGet env => rw [next_configGet]

theorem session_run_of_not_nfc {is : List Input} (h : ∀ i ∈ is, ¬ IsNfc i) :
    session (machine.run s is).device.auth .nfc = session s.device.auth .nfc :=
  machine.run_invariant_of (I := fun t => session t.device.auth .nfc = session s.device.auth .nfc)
    (P := fun i => ¬ IsNfc i) (fun _ _ hi ht => (session_next_of_not_nfc hi).trans ht) s is h rfl

/-- An input of the shell. -/
def IsShell (i : Input) : Prop := ¬ IsNfc i ∧ i ≠ .initialise

theorem auth_run_of_isShell {is : List Input} (h : ∀ i ∈ is, IsShell i) :
    (machine.run s is).device.auth = s.device.auth := by
  refine machine.run_invariant_of (I := fun t => t.device.auth = s.device.auth) (P := IsShell)
    (fun t i hi ht => ?_) s is h rfl
  cases i with
  | initialise => exact absurd rfl hi.2
  | nfc => exact absurd trivial hi.1
  | call c => exact ht
  | configGet env =>
    rw [next_configGet]
    exact ht

/-- The NONCE of a device whose variables are the static ones. -/
theorem issued_of_static {d : Device} (h : d.auth = Auth.static) (env : Env) {req : Payload}
    (hNonce : IsAuth authSubcmdNonce req.bytes) :
    session (Device.machine.next d ⟨env.uptime, .request .nfc env.rand req⟩).auth .nfc = ⟨env.rand, true, none⟩ ∧
      (Device.machine.next d ⟨env.uptime, .request .nfc env.rand req⟩).auth.passwordHash =
        Auth.static.passwordHash := by
  have hLocked : ¬ Writable d.auth .nfc env.uptime := by
    rw [h]
    exact fun hStatus => by cases hStatus
  constructor
  · rw [session_next, eventAction_of_auth rfl hNonce, authAction_of_nonce hNonce, h]
    rfl
  · rw [auth_next_of_request rfl, ← h]
    exact passwordHash_processAppPayload.resolve_right fun hChanged => hLocked hChanged.1

theorem respond_of_zero {a : Auth} (h : a.passwordHash = Auth.static.passwordHash) (n : Bytes 8) :
    respond a n = (hmacSha256 (List.replicate 32 0) (n.toList ++ AppAuth.gSn)).toList := by
  have hZero : Auth.static.passwordHash.toList = List.replicate 32 0 := rfl
  rw [respond, expectedToken, h, hZero]

/-- Before `app_auth_init` the key is 32 zero bytes, and whoever shows a token made with it can write
until the window ends, whatever `main` does in between. -/
theorem opens_with_zero_key {before between after : List Input} {nonceEnv tokenEnv : Env} {nonceReq tokenReq : Payload}
    (hBefore : ∀ i ∈ before, IsShell i) (hNonce : IsAuth authSubcmdNonce nonceReq.bytes)
    (hBetween : ∀ i ∈ between, IsShell i) (hToken : IsToken tokenReq.bytes)
    (hCredential : credential tokenReq.bytes =
      (hmacSha256 (List.replicate 32 0) (nonceEnv.rand.toList ++ AppAuth.gSn)).toList)
    (hAfter : ∀ i ∈ after, ¬ IsNfc i) (t : Nat) :
    Writable (machine.run .static (before ++ .nfc nonceEnv nonceReq :: between ++
        .nfc tokenEnv tokenReq :: after)).device.auth .nfc t ↔
      t ≤ tokenEnv.uptime + nfcAuthWindowMs := by
  have hStatic : (machine.run .static before).device.auth = Auth.static := auth_run_of_isShell hBefore
  rw [Machine.run_append, Machine.run_append, Machine.run_cons, Machine.run_cons, writable_iff_open,
    session_run_of_not_nfc hAfter]
  obtain ⟨hIssued, hHash⟩ :
      session (machine.next (machine.run .static before) (.nfc nonceEnv nonceReq)).device.auth .nfc = _ ∧
        (machine.next (machine.run .static before) (.nfc nonceEnv nonceReq)).device.auth.passwordHash = _ :=
    issued_of_static hStatic nonceEnv hNonce
  have hHeld := auth_run_of_isShell (s := machine.next (machine.run .static before) (.nfc nonceEnv nonceReq)) hBetween
  rw [next_nfc (machine.run (machine.next _ _) between), session_next, eventAction_of_token rfl hToken, hHeld, hIssued,
    Session.apply, if_pos rfl, if_pos (hCredential.trans (respond_of_zero hHash nonceEnv.rand).symm)]
  constructor
  · rintro ⟨deadline, hDeadline, hBefore⟩
    obtain rfl := Option.some.inj hDeadline
    exact WithTop.coe_le_coe.mp hBefore
  · intro hWindow
    exact ⟨_, rfl, WithTop.coe_le_coe.mpr hWindow⟩

def zeroToken : Bytes 32 := hmacSha256 (List.replicate 32 0) ((List.Vector.replicate 8 1).toList ++ AppAuth.gSn)

theorem isShell_lateDistance : ∀ i ∈ lateDistance, IsShell i := fun i hi =>
  ⟨by obtain rfl := List.mem_singleton.mp hi; exact not_false, call_ne_initialise _ i hi⟩

theorem isAuth_nonceRequest : IsAuth authSubcmdNonce nonceRequest.bytes := rfl

/-- The start ends, and the reader can still write. -/
theorem opens_with_zero_key_token :
    Writable (machine.run .static ([] ++ .nfc ⟨1, List.Vector.replicate 8 1⟩ nonceRequest :: lateDistance ++
        .nfc ⟨2, List.Vector.replicate 8 0⟩
          (tokenRequest zeroToken) :: [.initialise, .initialise])).device.auth .nfc 300002 ↔
      300002 ≤ 2 + nfcAuthWindowMs :=
  @opens_with_zero_key [] lateDistance [.initialise, .initialise] ⟨1, List.Vector.replicate 8 1⟩
    ⟨2, List.Vector.replicate 8 0⟩ nonceRequest (tokenRequest zeroToken) (List.forall_mem_nil _) isAuth_nonceRequest
    isShell_lateDistance (isToken_tokenRequest zeroToken) (credential_tokenRequest zeroToken) (by decide) 300002

end ZeroKey

end IotRange.Startup
