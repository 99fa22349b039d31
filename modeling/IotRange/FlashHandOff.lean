import IotRange.FlashUpdate

/-! # The flash hand-over

Updates that win the compare-and-swap go through one buffer to `ndef_file_update`, in their
order and one at a time. What is under way is a function of the state, so a run keeps a balance:
won is what has been passed on and what is under way.
-/
namespace IotRange.FlashHandOff
open FlashUpdate NdefFile
set_option autoImplicit false

section Updates

variable {size : Nat} {files : FileSystem} (s : State size files.Fs)

/-- What `ndef_file_update` gets of a file with its length in `flash_buf_len`. -/
def contents (file : Bytes size) (flashBufLen : UInt8) : List UInt8 := file.toList.take flashBufLen.toNat

def flashLength (dataLength : Nat) : UInt8 := UInt8.ofNat (dataLength + nlenFieldSize)

/-- The update whose callback wins the compare-and-swap in this step. -/
def won (i : Input size) : List (List UInt8) :=
  match i, s.callback with
  | .callback, .cas dataLength =>
    if s.opFlags = .writeFinished then [contents s.ndefMsgBuf (flashLength dataLength)] else []
  | _, _ => []

/-- The update passed to `ndef_file_update` in this step. -/
def passed (i : Input size) : List (List UInt8) := ((machine files size).output s i).toList

/-- What `flash_buf` holds from the copy on, up to the write. -/
def copied : List (List UInt8) :=
  match s.opFlags, s.loop with
  | .writeFinished, _ => []
  | _, .reset => []
  | _, _ => [contents s.flashBuf s.flashBufLen]

/-- The update that has won and has not been passed on. -/
def underWay : List (List UInt8) :=
  match s.callback with
  | .storeLength dataLength => [contents s.ndefMsgBuf (flashLength dataLength)]
  | .copy => [contents s.ndefMsgBuf s.flashBufLen]
  | .idle | .cas _ | .setFlag | .give => copied s

def sideSteps (m n : Nat) : List (Input size) :=
  List.replicate m .callback ++ List.replicate n .loop

/-- The steps of either side up to the one that passes the update on. A callback at its
compare-and-swap will lose. -/
def awaited : List (Input size) :=
  match s.callback with
  | .idle | .cas _ => sideSteps 0 (loopSteps s.loop)
  | .storeLength _ | .copy | .setFlag | .give => sideSteps (callbackSteps s.callback) (loopSteps s.loop)

variable {s}

theorem underWay_of_outside (h : s.callback.Outside) : underWay s = copied s := by
  obtain ⟨ndefMsgBuf, opFlags, flashBuf, flashBufLen, nfcWriteSem, callback, loop, fs⟩ := s
  cases callback with
  | idle | cas => rfl
  | storeLength | copy | setFlag | give => exact h.elim

theorem outside_of_idle (h : s.callback = .idle) : s.callback.Outside := by
  rw [h]
  trivial

/-- An event finds the callback outside of `flash_buffer_prepare` and leaves it there. -/
theorem underWay_next_write (file : Bytes size) :
    underWay ((machine files size).next s (.write file)) = underWay s := by
  obtain hSame | ⟨hIdle, hWrite⟩ := next_write_cases files s file
  · rw [hSame]
  · rw [hWrite, underWay_of_outside (outside_of_idle hIdle)]
    exact underWay_of_outside (s := { s with ndefMsgBuf := file }) (outside_of_idle hIdle)

theorem underWay_nfcCallback (h : s.callback = .idle) (dataLength : Nat) (handled : Bool) (file : Bytes size) :
    underWay (nfcCallback files s dataLength handled file) = underWay s := by
  rw [underWay_of_outside (outside_of_idle h), nfcCallback]
  split
  · split
    · rfl
    · exact underWay_of_outside (s := { s with ndefMsgBuf := file }) (outside_of_idle h)
  · exact underWay_of_outside (outside_of_idle h)

theorem underWay_next_updated (dataLength : Nat) (handled : Bool) (file : Bytes size) :
    underWay ((machine files size).next s (.updated dataLength handled file)) = underWay s := by
  obtain hSame | ⟨hIdle, hUpdated⟩ := next_updated_cases files s dataLength handled file
  · rw [hSame]
  · rw [hUpdated, underWay_nfcCallback hIdle]

theorem balance_callback (h : s.InPhase) :
    underWay s ++ won s .callback = passed s .callback ++ underWay ((machine files size).next s .callback) := by
  obtain ⟨ndefMsgBuf, opFlags, flashBuf, flashBufLen, nfcWriteSem, callback, loop, fs⟩ := s
  change Phase callback opFlags nfcWriteSem loop at h
  cases h with
  | free _ hOutside =>
    cases callback with
    | idle | cas => rfl
    | storeLength | copy | setFlag | give => exact hOutside.elim
  | storeLength | copy | setFlag | give => rfl
  | given _ hOutside | taken _ hOutside | update _ hOutside | reset _ hOutside =>
    cases callback with
    | idle | cas => rfl
    | storeLength | copy | setFlag | give => exact hOutside.elim

theorem balance_loop (h : s.InPhase) :
    underWay s ++ won s .loop = passed s .loop ++ underWay ((machine files size).next s .loop) := by
  obtain ⟨ndefMsgBuf, opFlags, flashBuf, flashBufLen, nfcWriteSem, callback, loop, fs⟩ := s
  change Phase callback opFlags nfcWriteSem loop at h
  cases h with
  | storeLength | copy | setFlag | give => rfl
  | free _ hOutside | given _ hOutside | taken _ hOutside | update _ hOutside | reset _ hOutside =>
    cases callback with
    | idle | cas => rfl
    | storeLength | copy | setFlag | give => exact hOutside.elim

/-- What wins in a step is under way after it, or still is what it was before. -/
theorem balance (h : s.InPhase) (i : Input size) :
    underWay s ++ won s i = passed s i ++ underWay ((machine files size).next s i) := by
  cases i with
  | write file =>
    rw [underWay_next_write]
    exact List.append_nil _
  | updated dataLength handled file =>
    rw [underWay_next_updated]
    exact List.append_nil _
  | callback => exact balance_callback h
  | loop => exact balance_loop h

/-! ## The steps an update waits for -/

theorem sideSteps_sublist {m m' n n' : Nat} (hm : m ≤ m') (hn : n ≤ n') :
    (sideSteps m n : List (Input size)).Sublist (sideSteps m' n') :=
  ((List.replicate_sublist_replicate _).mpr hm).append ((List.replicate_sublist_replicate _).mpr hn)

theorem awaited_sublist : (awaited s).Sublist (sideSteps 4 3) := by
  have hLoop : loopSteps s.loop ≤ 3 := by cases s.loop <;> decide
  unfold awaited
  split
  · exact sideSteps_sublist (Nat.zero_le 4) hLoop
  · exact sideSteps_sublist (Nat.zero_le 4) hLoop
  all_goals
    rename_i hCallback
    rw [hCallback]
    exact sideSteps_sublist (by simp [callbackSteps]) hLoop

theorem awaited_of_outside (h : s.callback.Outside) : awaited s = sideSteps 0 (loopSteps s.loop) := by
  unfold awaited
  cases hCallback : s.callback with
  | idle | cas => rfl
  | storeLength | copy | setFlag | give => exact (hCallback ▸ h).elim

/-- An update is under way, and these steps are between it and `ndef_file_update`. -/
structure Waits (rest : List (Input size)) (s : State size files.Fs) : Prop where
  inPhase : s.InPhase
  underWay : underWay s ≠ []
  awaited : awaited s = rest

/-- Outside of `flash_buffer_prepare` only the main loop is waited for. -/
theorem Waits.outside {rest : List (Input size)} (h : Waits rest s) (hOutside : s.callback.Outside) :
    copied s ≠ [] ∧ sideSteps 0 (loopSteps s.loop) = rest :=
  ⟨underWay_of_outside hOutside ▸ h.underWay, awaited_of_outside hOutside ▸ h.awaited⟩

theorem waits_of_outside (h : s.InPhase) (hOutside : s.callback.Outside) (hCopied : copied s ≠ []) :
    Waits (sideSteps 0 (loopSteps s.loop)) s :=
  ⟨h, by rwa [underWay_of_outside hOutside], awaited_of_outside hOutside⟩

theorem not_waits_nil (s : State size files.Fs) : ¬ Waits [] s := by
  intro h
  have hPhase := h.inPhase
  obtain ⟨ndefMsgBuf, opFlags, flashBuf, flashBufLen, nfcWriteSem, callback, loop, fs⟩ := s
  change Phase callback opFlags nfcWriteSem loop at hPhase
  cases hPhase with
  | storeLength | copy | setFlag | give => cases h.awaited
  | free _ hOutside | given _ hOutside | taken _ hOutside | update _ hOutside =>
    cases (h.outside hOutside).2
  | reset _ hOutside => exact (h.outside hOutside).1 rfl

/-- The awaited step passes the update on or leaves the steps after it to wait for. -/
theorem Waits.next {i : Input size} {rest : List (Input size)} (h : Waits (i :: rest) s) :
    passed s i ≠ [] ∨ Waits rest ((machine files size).next s i) := by
  have hNext := inPhase_next h.inPhase i
  have hPhase := h.inPhase
  obtain ⟨ndefMsgBuf, opFlags, flashBuf, flashBufLen, nfcWriteSem, callback, loop, fs⟩ := s
  change Phase callback opFlags nfcWriteSem loop at hPhase
  cases hPhase with
  | storeLength | copy | setFlag | give =>
    obtain ⟨rfl, rfl⟩ := List.cons.inj h.awaited
    exact .inr ⟨hNext, List.cons_ne_nil _ _, rfl⟩
  | free _ hOutside | reset _ hOutside => exact absurd rfl (h.outside hOutside).1
  | given _ hOutside | taken _ hOutside =>
    obtain ⟨rfl, rfl⟩ := List.cons.inj (h.outside hOutside).2
    exact .inr (waits_of_outside hNext hOutside (List.cons_ne_nil _ _))
  | update _ hOutside =>
    obtain ⟨rfl, rfl⟩ := List.cons.inj (h.outside hOutside).2
    exact .inl (List.cons_ne_nil _ _)

theorem Waits.next_write {rest : List (Input size)} (h : Waits rest s) (file : Bytes size) :
    Waits rest ((machine files size).next s (.write file)) := by
  refine ⟨inPhase_next h.inPhase _, by rw [underWay_next_write]; exact h.underWay, ?_⟩
  obtain hSame | ⟨hIdle, hWrite⟩ := next_write_cases files s file
  · rw [hSame, h.awaited]
  · rw [hWrite, ← h.awaited]
    rfl

theorem Waits.next_updated {rest : List (Input size)} (h : Waits rest s) (dataLength : Nat) (handled : Bool)
    (file : Bytes size) : Waits rest ((machine files size).next s (.updated dataLength handled file)) := by
  refine ⟨inPhase_next h.inPhase _, by rw [underWay_next_updated]; exact h.underWay, ?_⟩
  obtain hSame | ⟨hIdle, hUpdated⟩ := next_updated_cases files s dataLength handled file
  · rw [hSame, h.awaited]
  · rw [hUpdated, ← h.awaited, nfcCallback]
    have hOutside := outside_of_idle hIdle
    split
    · split
      · rw [awaited_of_outside hOutside]
        rfl
      · rfl
    · rfl

/-- Any other step changes nothing about what is waited for. -/
theorem Waits.other {i j : Input size} {rest : List (Input size)} (h : Waits (i :: rest) s) (hOther : j ≠ i) :
    Waits (i :: rest) ((machine files size).next s j) := by
  have hNext := inPhase_next h.inPhase j
  cases j with
  | write file => exact h.next_write file
  | updated dataLength handled file => exact h.next_updated dataLength handled file
  | callback =>
    have hPhase := h.inPhase
    obtain ⟨ndefMsgBuf, opFlags, flashBuf, flashBufLen, nfcWriteSem, callback, loop, fs⟩ := s
    change Phase callback opFlags nfcWriteSem loop at hPhase
    cases hPhase with
    | storeLength | copy | setFlag | give =>
      obtain ⟨rfl, -⟩ := List.cons.inj h.awaited
      exact absurd rfl hOther
    | free _ hOutside | reset _ hOutside => exact absurd rfl (h.outside hOutside).1
    | given _ hOutside | taken _ hOutside | update _ hOutside =>
      -- an update that loses
      cases callback with
      | idle => exact h
      | cas dataLength => exact ⟨hNext, List.cons_ne_nil _ _, h.awaited⟩
      | storeLength | copy | setFlag | give => exact hOutside.elim
  | loop =>
    have hPhase := h.inPhase
    obtain ⟨ndefMsgBuf, opFlags, flashBuf, flashBufLen, nfcWriteSem, callback, loop, fs⟩ := s
    change Phase callback opFlags nfcWriteSem loop at hPhase
    cases hPhase with
    | storeLength | copy | setFlag | give => exact h
    | free _ hOutside | reset _ hOutside => exact absurd rfl (h.outside hOutside).1
    | given _ hOutside | taken _ hOutside | update _ hOutside =>
      obtain ⟨rfl, -⟩ := List.cons.inj (h.outside hOutside).2
      exact absurd rfl hOther

/-! ## Whole runs -/

theorem length_underWay_le_one (s : State size files.Fs) : (underWay s).length ≤ 1 := by
  unfold underWay
  split
  · exact Nat.le_refl 1
  · exact Nat.le_refl 1
  all_goals
    unfold copied
    split <;> simp

theorem run_balance (h : s.InPhase) (is : List (Input size)) :
    underWay s ++ (machine files size).observe won s is =
      (machine files size).observe passed s is ++ underWay ((machine files size).run s is) :=
  Machine.observe_balance _ (I := State.InPhase) (fun _ i hs => inPhase_next hs i) (fun _ i hs => balance hs i) s is h

/-- The steps of both sides pass on what is under way, before anything else. -/
theorem underWay_prefix_passed (h : s.InPhase) {is : List (Input size)} (hSteps : (sideSteps 4 3).Sublist is) :
    underWay s <+: (machine files size).observe passed s is := by
  by_cases hNone : underWay s = []
  · rw [hNone]
    exact List.nil_prefix
  · obtain ⟨p, hp, hPassed⟩ := Machine.exists_situation_of_sublist (machine files size) (I := Waits)
      not_waits_nil (fun _ _ _ hs => hs.next) (fun _ _ _ _ hs hOther => .inr (hs.other hOther))
      (awaited_sublist.trans hSteps) s ⟨h, hNone, rfl⟩
    obtain ⟨update, hUpdate⟩ : ∃ update, underWay s = [update] :=
      List.length_eq_one_iff.mp (Nat.le_antisymm (length_underWay_le_one s) (List.length_pos_iff.mpr hNone))
    obtain ⟨first, rest, hObserved⟩ : ∃ first rest, (machine files size).observe passed s is = first :: rest := by
      refine List.exists_cons_of_ne_nil fun hNil => hPassed ?_
      exact List.flatMap_eq_nil_iff.mp hNil p hp
    have hBalance := run_balance h is
    rw [hUpdate, hObserved] at hBalance ⊢
    rw [(List.cons.inj hBalance).1]
    exact ⟨rest, rfl⟩

theorem flashBuf_nfcCallback (dataLength : Nat) (handled : Bool) (file : Bytes size) :
    (nfcCallback files s dataLength handled file).flashBuf = s.flashBuf ∧
      (nfcCallback files s dataLength handled file).flashBufLen = s.flashBufLen := by
  unfold nfcCallback
  split
  · split <;> exact ⟨rfl, rfl⟩
  · exact ⟨rfl, rfl⟩

theorem flashBuf_mainLoop :
    (mainLoop files s).1.flashBuf = s.flashBuf ∧ (mainLoop files s).1.flashBufLen = s.flashBufLen := by
  unfold mainLoop
  split
  · dsimp only
    split <;> exact ⟨rfl, rfl⟩
  · dsimp only
    split <;> exact ⟨rfl, rfl⟩
  · exact ⟨rfl, rfl⟩
  · exact ⟨rfl, rfl⟩

/-- Only the callback that holds the flag writes to the flash buffer. -/
theorem frozen_next (h : s.InPhase) (hPrepared : s.opFlags = .bufPrepFinished ∨ s.opFlags = .writeStarted)
    (i : Input size) : ((machine files size).next s i).flashBuf = s.flashBuf ∧
      ((machine files size).next s i).flashBufLen = s.flashBufLen := by
  cases i with
  | write file =>
    obtain hSame | ⟨-, hWrite⟩ := next_write_cases files s file
    · rw [hSame]
      exact ⟨rfl, rfl⟩
    · rw [hWrite]
      exact ⟨rfl, rfl⟩
  | updated dataLength handled file =>
    obtain hSame | ⟨-, hUpdated⟩ := next_updated_cases files s dataLength handled file
    · rw [hSame]
      exact ⟨rfl, rfl⟩
    · rw [hUpdated]
      exact flashBuf_nfcCallback dataLength handled file
  | callback =>
    obtain ⟨ndefMsgBuf, opFlags, flashBuf, flashBufLen, nfcWriteSem, callback, loop, fs⟩ := s
    change Phase callback opFlags nfcWriteSem loop at h
    cases h with
    | free | storeLength | copy | setFlag => obtain hFlags | hFlags := hPrepared <;> cases hFlags
    | give => exact ⟨rfl, rfl⟩
    | given _ hOutside | taken _ hOutside | update _ hOutside | reset _ hOutside =>
      cases callback with
      | idle | cas => exact ⟨rfl, rfl⟩
      | storeLength | copy | setFlag | give => exact hOutside.elim
  | loop => exact flashBuf_mainLoop

theorem wakeUp_kept (h : s.InPhase) (hPrepared : s.opFlags = .bufPrepFinished) (hGiven : s.callback ≠ .give) :
    s.nfcWriteSem = 1 ∨ s.loop = .cas := by
  obtain ⟨ndefMsgBuf, opFlags, flashBuf, flashBufLen, nfcWriteSem, callback, loop, fs⟩ := s
  change Phase callback opFlags nfcWriteSem loop at h
  cases h with
  | free | storeLength | copy | setFlag | update | reset => cases hPrepared
  | give => exact absurd rfl hGiven
  | given => exact .inl rfl
  | taken => exact .inr rfl

theorem next_callback_of_loses {dataLength : Nat} (h : s.callback = .cas dataLength)
    (hTaken : s.opFlags ≠ .writeFinished) :
    (machine files size).next s .callback = { s with callback := .idle } := by
  change flashBufferPrepare files s = _
  rw [flashBufferPrepare, h]
  exact if_neg hTaken

/-- The hand-over in a run and after it. -/
structure HandsOver (s : State size files.Fs) (is : List (Input size)) : Prop where
  /-- From the flag that marks an update as prepared to the end of its write the buffer is not touched. -/
  frozen : ∀ p ∈ (machine files size).situations s is,
    p.1.opFlags = .bufPrepFinished ∨ p.1.opFlags = .writeStarted →
      ((machine files size).next p.1 p.2).flashBuf = p.1.flashBuf ∧
        ((machine files size).next p.1 p.2).flashBufLen = p.1.flashBufLen
  /-- What has won has been passed on, once and in its order, up to one update that is under way. -/
  once : (machine files size).observe won s is =
    (machine files size).observe passed s is ++ underWay ((machine files size).run s is)
  atMostOne : (underWay ((machine files size).run s is)).length ≤ 1
  /-- The one under way is passed on next, as soon as both sides have taken their steps. -/
  passedOn : ∀ js, (sideSteps 4 3).Sublist js →
    underWay ((machine files size).run s is) <+:
      (machine files size).observe passed ((machine files size).run s is) js
  losers : ∀ p ∈ (machine files size).situations s is, ∀ dataLength, p.1.callback = .cas dataLength →
    p.1.opFlags ≠ .writeFinished → p.2 = .callback →
      (machine files size).next p.1 p.2 = { p.1 with callback := .idle }
  wakeUp : ((machine files size).run s is).opFlags = .bufPrepFinished →
    ((machine files size).run s is).callback ≠ .give →
      ((machine files size).run s is).nfcWriteSem = 1 ∨ ((machine files size).run s is).loop = .cas

end Updates

theorem handsOver {size : Nat} (files : FileSystem) (ndefMsgBuf : Bytes size) (fs : files.Fs) (is : List (Input size)) :
    HandsOver (.boot ndefMsgBuf fs) is := by
  have hPhase (js : List (Input size)) : ((machine files size).run (.boot ndefMsgBuf fs) js).InPhase :=
    inPhase_of_reachable ⟨ndefMsgBuf, fs, js, rfl⟩
  refine ⟨?_, ?_, length_underWay_le_one _, fun js hSteps => underWay_prefix_passed (hPhase is) hSteps, ?_,
    wakeUp_kept (hPhase is)⟩
  · intro p hp hPrepared
    obtain ⟨pre, post, rfl, hState⟩ := (machine files size).mem_situations_iff.mp hp
    exact frozen_next (hState ▸ hPhase pre) hPrepared p.2
  · exact run_balance (hPhase []) is
  · rintro ⟨s, i⟩ - dataLength hCas hTaken rfl
    exact next_callback_of_loses hCas hTaken

end IotRange.FlashHandOff
