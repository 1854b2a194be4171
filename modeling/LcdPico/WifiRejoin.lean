import LcdPico.MainLoop
import LcdPico.Settings
import LcdPico.Lib.Clocked

/-!
# Joining the WiFi network again (`network.c`)

`wifi_poll` looks at the link every 1.5 s, and calls `wifi_rejoin` once the link has been in
one bad state for a while. lwIP calls back from an interrupt, which may come between any two
statements of the main loop and notes the state of the link in the same two variables. A
command asks for `wifi_rejoin` as well.

* `rejoin_after_delay` — the network is left alone until the link has been in the same bad
  state for the whole delay, whatever the interrupts do
* `rejoins_go_on` — as long as the link stays in that state, one attempt follows another
-/

namespace LcdPico

variable {F : Type}

/-! ## The states of the link and the settings -/

/-- The link states of the driver. -/
def CYW43_LINK_DOWN : Int := 0
def CYW43_LINK_JOIN : Int := 1
def CYW43_LINK_NOIP : Int := 2
def CYW43_LINK_UP : Int := 3

/-- in ms -/
def WIFI_REJOIN_DELAY : Nat := 10000

/-- The `CYW43_AUTH_` constants in `auth_types`. -/
inductive WifiAuth where
  | wpa2AesPsk
  | wpa3Wpa2AesPsk
  | wpa3SaeAesPsk
  | wpa2MixedPsk
  | wpaTkipPsk
  | open
deriving DecidableEq, Repr

/-- The types in `auth_types`, next to the names `authTypes`. -/
def wifiAuthTypes : List WifiAuth :=
  [.wpa2AesPsk, .wpa3Wpa2AesPsk, .wpa3SaeAesPsk, .wpa2AesPsk, .wpa2MixedPsk, .wpaTkipPsk, .open]

/-- `*type` after `wifi_get_auth_type`: the first one of the table if the name is not found. -/
def wifiAuthType (name : CString) : WifiAuth :=
  if name.isEmpty then .wpa2AesPsk
  else
    match (authTypes.zip wifiAuthTypes).find? fun a =>
        CText.strncaseeq name a.1 (name.length + 1) with
    | some a => a.2
    | none => .wpa2AesPsk

/-- The arguments of `cyw43_arch_wifi_connect_async`. -/
structure JoinRequest where
  ssid : CString
  passwd : CString
  auth : WifiAuth
deriving DecidableEq, Repr

/-- What `wifi_rejoin` asks the driver for. -/
def wifiRejoinRequest (cfg : SystemConfig F) : Option JoinRequest :=
  if cfg.wifiSsid.val.length < 1 then none
  else
    let auth := wifiAuthType cfg.wifiAuthMode.val
    if auth ≠ .open ∧ cfg.wifiPasswd.val.length < 1 then none
    else some ⟨cfg.wifiSsid.val, cfg.wifiPasswd.val, auth⟩

/-- `delay` in `wifi_check_status` -/
def rejoinDelay (status : Int) : Nat :=
  if status = CYW43_LINK_JOIN ∨ status = CYW43_LINK_NOIP then 3 * WIFI_REJOIN_DELAY
  else WIFI_REJOIN_DELAY

/-- `absolute_time_diff_us` -/
def absoluteTimeDiffUs (t now : Nat) : Int := (now : Int) - t

/-- `time_elapsed`; the difference is compared as an unsigned one. -/
def timeElapsed (t ms now : Nat) : Bool :=
  1000 * ms < (absoluteTimeDiffUs t now % 2 ^ 64).toNat

/-! ## The main loop and the interrupts -/

/-- Where the main loop is in `wifi_poll`: an interrupt may come before each of these. -/
inductive WifiPc where
  /-- not in `wifi_poll`, or at its `time_passed` -/
  | poll
  /-- `cyw43_tcpip_link_status` -/
  | look
  /-- `if (status != net_state->wifi_status)` -/
  | compare (status : Int)
  /-- `net_state->wifi_status = status` -/
  | store (status : Int)
  /-- `net_state->wifi_status_change = get_absolute_time()` -/
  | stamp
  /-- `net_state->wifi_status_change` is read, for `time_elapsed` -/
  | timer (status : Int)
  /-- `get_absolute_time` in `time_elapsed` -/
  | elapsed (status : Int) (t : Nat)
  /-- `wifi_rejoin` -/
  | rejoin
deriving DecidableEq, Repr

structure WifiState where
  pc : WifiPc
  wifiInitialized : Bool
  wifiStatus : Int
  wifiStatusChange : Nat
  wifiStatusCheckT : Nat
deriving DecidableEq, Repr

/-- What happens next, with the time. -/
inductive WifiAct (F : Type) where
  /-- the main loop goes on; it would find the link in the state `link`, and the settings `cfg` -/
  | main (now : Nat) (link : Int) (cfg : SystemConfig F)
  /-- the command `SYS:WIFI:REJOIN`, which the main loop runs between its polls -/
  | command (now : Nat)
  /-- `wifi_link_cb` or `wifi_status_cb` is called -/
  | callback (now : Nat) (link : Int)

def WifiAct.time : WifiAct F → Nat
  | .main now _ _ => now
  | .command now => now
  | .callback now _ => now

namespace WifiState

/-- `wifi_check_status`, when nothing comes between: in an interrupt. -/
def checkStatus (s : WifiState) (status : Int) (now : Nat) : WifiState × Bool :=
  if status ≠ s.wifiStatus then
    ({ s with wifiStatus := status, wifiStatusChange := now }, false)
  else
    (s, status ≠ CYW43_LINK_UP && timeElapsed s.wifiStatusChange (rejoinDelay status) now)

/-- A step of the main loop. What `wifi_rejoin` does after it noted the time, it does with
nothing that an interrupt changes. -/
def mainStep (s : WifiState) (now : Nat) (link : Int) : WifiState :=
  match s.pc with
  | .poll =>
    if s.wifiInitialized then
      let (due, t) := timePassed s.wifiStatusCheckT 1500 now
      { s with wifiStatusCheckT := t, pc := if due then .look else .poll }
    else s
  | .look => { s with pc := .compare link }
  | .compare status =>
    { s with
      pc :=
        if status ≠ s.wifiStatus then .store status
        else if status ≠ CYW43_LINK_UP then .timer status
        else .poll }
  | .store status => { s with wifiStatus := status, pc := .stamp }
  | .stamp => { s with wifiStatusChange := now, pc := .poll }
  | .timer status => { s with pc := .elapsed status s.wifiStatusChange }
  | .elapsed status t =>
    { s with pc := if timeElapsed t (rejoinDelay status) now then .rejoin else .poll }
  | .rejoin =>
    { s with
      wifiStatusChange := if s.wifiInitialized then now else s.wifiStatusChange
      pc := .poll }

/-- What happens. The result of `wifi_check_status` is for `wifi_poll` alone. -/
def step (s : WifiState) : WifiAct F → WifiState
  | .main now link _ => s.mainStep now link
  | .command _ => if s.pc = .poll then { s with pc := .rejoin } else s
  | .callback now link => (s.checkStatus link now).1

end WifiState

/-- What is to be remembered of a run. -/
inductive WifiEvent where
  /-- the link was found in this state -/
  | sees (status : Int)
  /-- `wifi_rejoin` -/
  | rejoins (request : Option JoinRequest)
deriving DecidableEq, Repr

namespace WifiState

def events (s : WifiState) : WifiAct F → List (Nat × WifiEvent)
  | .main now link cfg =>
    match s.pc with
    | .look => [(now, .sees link)]
    | .rejoin => if s.wifiInitialized then [(now, .rejoins (wifiRejoinRequest cfg))] else []
    | _ => []
  | .command _ => []
  | .callback now link => [(now, .sees link)]

end WifiState

/-! ## What the two variables say of the past -/

/-- The main loop is about to note that the link is in the state `status`, or that it changed. -/
def WifiPc.Notes (status : Int) : WifiPc → Prop
  | .compare status' => status' = status
  | .store status' => status' = status
  | .stamp => True
  | _ => False

namespace WifiState

/-- What the variables say at the time `t` of something that happened: a state of the link
other than `wifi_status` was seen before `wifi_status_change`. -/
def Noted (t : Nat) (s : WifiState) : Nat × WifiEvent → Prop
  | (u, .sees status) =>
    u ≤ t ∧ (s.pc.Notes status ∨ status = s.wifiStatus ∨ u ≤ s.wifiStatusChange)
  | (u, .rejoins _) => u ≤ s.wifiStatusChange

/-- All of it is noted. -/
structure Notes (t : Nat) (s : WifiState) (log : List (Nat × WifiEvent)) : Prop where
  change_le : s.wifiStatusChange ≤ t
  noted : ∀ e ∈ log, s.Noted t e

variable {t now : Nat} {s : WifiState} {log : List (Nat × WifiEvent)} {e : Nat × WifiEvent}

/-- What a step of the main loop does to the two variables: it stamps them, or stores a state
and is about to stamp it, or leaves both as they are and forgets nothing. -/
theorem mainStep_cases (s : WifiState) (now : Nat) (link : Int) :
    (s.mainStep now link).wifiStatusChange = now ∨
      ((s.mainStep now link).pc = .stamp ∧
        (s.mainStep now link).wifiStatusChange = s.wifiStatusChange) ∨
      ((s.mainStep now link).wifiStatusChange = s.wifiStatusChange ∧
        (s.mainStep now link).wifiStatus = s.wifiStatus ∧
        ∀ status, s.pc.Notes status →
          (s.mainStep now link).pc.Notes status ∨ status = s.wifiStatus) := by
  rw [mainStep]
  cases hpc : s.pc with
  | poll =>
    refine .inr (.inr ?_)
    dsimp only
    split
    · exact ⟨rfl, rfl, fun _ h => h.elim⟩
    · exact ⟨rfl, rfl, fun _ h => h.elim⟩
  | look => exact .inr (.inr ⟨rfl, rfl, fun _ h => h.elim⟩)
  | compare status =>
    refine .inr (.inr ⟨rfl, rfl, fun status' hnotes => ?_⟩)
    dsimp only
    split
    · exact .inl hnotes
    · rename_i hsame
      exact .inr ((Eq.symm hnotes).trans (not_not.mp hsame))
  | store status => exact .inr (.inl ⟨rfl, rfl⟩)
  | stamp => exact .inl rfl
  | timer status => exact .inr (.inr ⟨rfl, rfl, fun _ h => h.elim⟩)
  | elapsed status c => exact .inr (.inr ⟨rfl, rfl, fun _ h => h.elim⟩)
  | rejoin =>
    by_cases hinit : s.wifiInitialized = true
    · exact .inl (if_pos hinit)
    · exact .inr (.inr ⟨if_neg hinit, rfl, fun _ h => h.elim⟩)

/-- A callback leaves the main loop where it is, and notes what it sees. -/
theorem checkStatus_cases (s : WifiState) (status : Int) (now : Nat) :
    (s.checkStatus status now).1.pc = s.pc ∧ (s.checkStatus status now).1.wifiStatus = status ∧
      ((s.checkStatus status now).1.wifiStatusChange = now ∨
        (s.checkStatus status now).1 = s) := by
  rw [checkStatus]
  split
  · exact ⟨rfl, rfl, .inl rfl⟩
  · rename_i hsame
    exact ⟨rfl, (not_not.mp hsame).symm, .inr rfl⟩

theorem change_mono (a : WifiAct F) (h : s.wifiStatusChange ≤ a.time) :
    s.wifiStatusChange ≤ (s.step a).wifiStatusChange ∧
      (s.step a).wifiStatusChange ≤ a.time := by
  cases a with
  | main now link cfg =>
    obtain heq | ⟨-, heq⟩ | ⟨heq, -⟩ := s.mainStep_cases now link
    · exact ⟨Nat.le_trans h heq.ge, Nat.le_of_eq heq⟩
    · exact ⟨Nat.le_of_eq heq.symm, heq ▸ h⟩
    · exact ⟨Nat.le_of_eq heq.symm, heq ▸ h⟩
  | command now =>
    rw [step]
    split
    · exact ⟨Nat.le_refl _, h⟩
    · exact ⟨Nat.le_refl _, h⟩
  | callback now link =>
    obtain ⟨-, -, heq | heq⟩ := s.checkStatus_cases link now
    · exact ⟨Nat.le_trans h heq.ge, Nat.le_of_eq heq⟩
    · exact ⟨(congrArg wifiStatusChange heq).ge, (congrArg wifiStatusChange heq).trans_le h⟩

/-- What was noted stays noted. -/
theorem Noted.step (h : s.Noted t e) (hchange : s.wifiStatusChange ≤ t) (a : WifiAct F)
    (ht : t ≤ a.time) : (s.step a).Noted a.time e := by
  have hmono := (s.change_mono a (Nat.le_trans hchange ht)).1
  obtain ⟨u, status | request⟩ := e
  · obtain ⟨hu, h⟩ := h
    have hnow : u ≤ a.time := Nat.le_trans hu ht
    refine ⟨hnow, ?_⟩
    cases a with
    | main now link cfg =>
      obtain heq | ⟨hstamp, -⟩ | ⟨-, hstatus, hnotes⟩ := s.mainStep_cases now link
      · exact .inr (.inr (Nat.le_trans hnow heq.ge))
      · exact .inl (by rw [WifiState.step, hstamp]; trivial)
      · obtain hnoting | hsame | hbefore := h
        · obtain hnoting | hsame := hnotes status hnoting
          · exact .inl hnoting
          · exact .inr (.inl (hsame.trans hstatus.symm))
        · exact .inr (.inl (hsame.trans hstatus.symm))
        · exact .inr (.inr (Nat.le_trans hbefore hmono))
    | command now =>
      rw [WifiState.step]
      split
      · rename_i hpoll
        rw [hpoll] at h
        exact .inr (h.resolve_left id)
      · exact h
    | callback now link =>
      obtain ⟨hpc, -, heq | heq⟩ := s.checkStatus_cases link now
      · exact .inr (.inr (Nat.le_trans hnow heq.ge))
      · rw [WifiState.step, heq]
        exact h
  · exact Nat.le_trans h hmono

/-- What happens now is noted. -/
theorem noted_events (a : WifiAct F) (he : e ∈ s.events a) : (s.step a).Noted a.time e := by
  cases a with
  | main now link cfg =>
    rw [events] at he
    split at he
    · rename_i hpc
      rw [List.mem_singleton.mp he]
      refine ⟨Nat.le_refl _, .inl ?_⟩
      rw [WifiState.step, mainStep, hpc]
      exact rfl
    · rename_i hpc
      split at he
      · rename_i hinit
        rw [List.mem_singleton.mp he]
        have hstamp : (s.mainStep now link).wifiStatusChange = now := by
          rw [mainStep, hpc]
          exact if_pos hinit
        exact Nat.le_of_eq hstamp.symm
      · exact absurd he List.not_mem_nil
    · exact absurd he List.not_mem_nil
  | command now => exact absurd he List.not_mem_nil
  | callback now link =>
    rw [List.mem_singleton.mp he]
    exact ⟨Nat.le_refl _, .inr (.inl (s.checkStatus_cases link now).2.1.symm)⟩

theorem Notes.step (h : s.Notes t log) (a : WifiAct F) (ht : t ≤ a.time) :
    (s.step a).Notes a.time (log ++ s.events a) := by
  refine ⟨(s.change_mono a (Nat.le_trans h.change_le ht)).2, fun e he => ?_⟩
  obtain hold | hnew := List.mem_append.mp he
  · exact (h.noted e hold).step h.change_le a ht
  · exact noted_events a hnew

theorem lt_of_timeElapsed {c ms : Nat} (hc : c ≤ now) (h : timeElapsed c ms now = true) :
    c + 1000 * ms < now := by
  rw [timeElapsed, absoluteTimeDiffUs, decide_eq_true_iff] at h
  omega

end WifiState

/-- Where a call of `wifi_poll` can be at the time `t`, once it found the link in the bad state
`status`: the last change that was noted before that was at `c`. -/
def WifiPc.Waits (status : Int) (c t : Nat) : WifiPc → Prop
  | .poll => True
  | .timer status' => status' = status
  | .elapsed status' c' => status' = status ∧ c ≤ c' ∧ c' ≤ t
  | .rejoin => c + 1000 * rejoinDelay status < t
  | _ => False

theorem WifiPc.Waits.later {pc : WifiPc} {status : Int} {c t now : Nat}
    (h : pc.Waits status c t) (ht : t ≤ now) : pc.Waits status c now := by
  cases pc with
  | elapsed status' c' =>
    obtain ⟨hstatus, hc, hc'⟩ := h
    exact ⟨hstatus, hc, Nat.le_trans hc' ht⟩
  | rejoin => exact Nat.lt_of_lt_of_le h ht
  | poll => exact h
  | look => exact h
  | compare status' => exact h
  | store status' => exact h
  | stamp => exact h
  | timer status' => exact h

namespace WifiState

variable {t now : Nat} {s : WifiState} {log : List (Nat × WifiEvent)}

structure Waits (status : Int) (c t : Nat) (s : WifiState) : Prop where
  le_change : c ≤ s.wifiStatusChange
  change_le : s.wifiStatusChange ≤ t
  pc : s.pc.Waits status c t

theorem Waits.step {status : Int} {c : Nat} (h : s.Waits status c t) (hpoll : s.pc ≠ .poll)
    (a : WifiAct F) (ht : t ≤ a.time) : (s.step a).Waits status c a.time := by
  obtain ⟨hle, hchange, hpc⟩ := h
  obtain ⟨hmono, hnow⟩ := s.change_mono a (Nat.le_trans hchange ht)
  refine ⟨Nat.le_trans hle hmono, hnow, ?_⟩
  have hpc := hpc.later ht
  cases a with
  | main now link cfg =>
    rw [WifiState.step, mainStep]
    cases heq : s.pc with
    | poll => exact absurd heq hpoll
    | look =>
      rw [heq] at hpc
      exact hpc.elim
    | compare status' =>
      rw [heq] at hpc
      exact hpc.elim
    | store status' =>
      rw [heq] at hpc
      exact hpc.elim
    | stamp =>
      rw [heq] at hpc
      exact hpc.elim
    | timer status' =>
      rw [heq] at hpc
      exact ⟨hpc, hle, Nat.le_trans hchange ht⟩
    | elapsed status' c' =>
      rw [heq] at hpc
      obtain ⟨rfl, hc, hc'⟩ := hpc
      dsimp only
      by_cases helapsed : timeElapsed c' (rejoinDelay status') now = true
      · rw [if_pos helapsed]
        exact Nat.lt_of_le_of_lt (Nat.add_le_add_right hc _) (lt_of_timeElapsed hc' helapsed)
      · rw [if_neg helapsed]
        trivial
    | rejoin => trivial
  | command now =>
    rw [WifiState.step, if_neg hpoll]
    exact hpc
  | callback now link =>
    rw [WifiState.step, (s.checkStatus_cases link now).1]
    exact hpc

/-- The comparison that starts a wait. -/
theorem waits_compare {status : Int} {a : WifiAct F} (hcompare : s.pc = .compare status)
    (htimer : (s.step a).pc = .timer status) (hchange : s.wifiStatusChange ≤ t)
    (ht : t ≤ a.time) :
    status = s.wifiStatus ∧ status ≠ CYW43_LINK_UP ∧
      (s.step a).Waits status s.wifiStatusChange a.time := by
  obtain ⟨hmono, hnow⟩ := s.change_mono a (Nat.le_trans hchange ht)
  have hwaits : (s.step a).Waits status s.wifiStatusChange a.time :=
    ⟨hmono, hnow, by rw [htimer]; exact rfl⟩
  cases a with
  | main now link cfg =>
    rw [step, mainStep, hcompare] at htimer
    dsimp only at htimer
    split at htimer
    · exact absurd htimer (by simp)
    · rename_i hsame
      split at htimer
      · rename_i hup
        exact ⟨not_not.mp hsame, hup, hwaits⟩
      · exact absurd htimer (by simp)
  | command now =>
    rw [step, hcompare, if_neg (by simp)] at htimer
    exact absurd (hcompare.symm.trans htimer) (by simp)
  | callback now link =>
    rw [step, (s.checkStatus_cases link now).1] at htimer
    exact absurd (hcompare.symm.trans htimer) (by simp)

/-- Only `wifi_rejoin` rejoins, at its time. -/
theorem rejoins_mem_events {u : Nat} {request : Option JoinRequest} {a : WifiAct F}
    (h : (u, .rejoins request) ∈ s.events a) : s.pc = .rejoin ∧ u = a.time := by
  cases a with
  | main now link cfg =>
    rw [events] at h
    split at h
    · exact absurd (List.mem_singleton.mp h) (by simp)
    · rename_i hpc
      split at h
      · exact ⟨hpc, (Prod.mk.inj (List.mem_singleton.mp h)).1⟩
      · exact absurd h List.not_mem_nil
    · exact absurd h List.not_mem_nil
  | command now => exact absurd h List.not_mem_nil
  | callback now link => exact absurd (List.mem_singleton.mp h) (by simp)

end WifiState

/-- **The network is left alone for the delay.** When a call of `wifi_poll` that found the link
in the state `status` attempts to rejoin, the state is a bad one, and within the delay before
the attempt no other state was seen, by the main loop or by a callback, until the call compared
the states, and there was no other attempt. -/
theorem rejoin_after_delay {s₀ s : WifiState} {before call : List (WifiAct F)} {x y : WifiAct F}
    (hclock : (s₀.wifiStatusChange :: (before ++ x :: (call ++ [y])).map WifiAct.time).IsChain
      (· ≤ ·))
    (hbefore : Machine.run WifiState.step s₀ before = s) {status : Int}
    (hcompare : s.pc = .compare status) (htimer : (s.step x).pc = .timer status)
    (hcall : Machine.Within WifiState.step (fun s _ => s.pc ≠ .poll) (s.step x) call)
    {time : Nat} {request : Option JoinRequest}
    (hrejoins : (time, .rejoins request) ∈
      (Machine.run WifiState.step (s.step x) call).events y) :
    status ≠ CYW43_LINK_UP ∧
      ∀ e ∈ Machine.trace WifiState.step WifiState.events s₀ before,
        e.2 = .sees status ∨ e.1 + 1000 * rejoinDelay status < time := by
  have hstart : s₀.Notes s₀.wifiStatusChange [] :=
    ⟨Nat.le_refl _, fun e he => absurd he List.not_mem_nil⟩
  obtain ⟨hnotes, hclock⟩ := Machine.clocked_invariant (C := fun _ _ => True)
    (P := WifiState.Notes) (fun t s a log hs _ ht => hs.step a ht) hstart
    (Machine.within_of_forall (fun _ _ => trivial) s₀) hclock
  rw [hbefore, List.nil_append] at hnotes
  rw [List.map_cons, List.isChain_cons_cons] at hclock
  obtain ⟨ht, hclock⟩ := hclock
  obtain ⟨rfl, hup, hwaits⟩ := WifiState.waits_compare hcompare htimer hnotes.change_le ht
  obtain ⟨hwaits, hclock⟩ := Machine.clocked_run
    (P := fun t s' => s'.Waits s.wifiStatus s.wifiStatusChange t)
    (fun t s a hs hpoll ht => hs.step hpoll a ht) hwaits hcall hclock
  obtain ⟨hpc, rfl⟩ := WifiState.rejoins_mem_events hrejoins
  have hlate := hwaits.pc
  rw [hpc] at hlate
  have hdelay : s.wifiStatusChange + 1000 * rejoinDelay s.wifiStatus < y.time :=
    Nat.lt_of_lt_of_le hlate (List.isChain_cons_cons.mp hclock).1
  refine ⟨hup, fun e he => ?_⟩
  have hnoted := hnotes.noted e he
  obtain ⟨u, status | request⟩ := e
  · obtain ⟨-, hnotes | hsame | hbefore⟩ := hnoted
    · rw [hcompare] at hnotes
      exact .inl (congrArg WifiEvent.sees (Eq.symm hnotes))
    · exact .inl (congrArg WifiEvent.sees hsame)
    · exact .inr (Nat.lt_of_le_of_lt (Nat.add_le_add_right hbefore _) hdelay)
  · exact .inr (Nat.lt_of_le_of_lt (Nat.add_le_add_right hnoted _) hdelay)

/-- The settings of a network. -/
def joinConfig : SystemConfig ℚ :=
  { clearConfig hostPlatform with
    wifiSsid := CStr.copy "net".toList
    wifiPasswd := CStr.copy "secret".toList }

/-- A wrong password is seen, and then again; right after the second look a callback finds the
link up, too late for the call. -/
theorem rejoin_after_delay_badauth :
    let s₀ : WifiState := ⟨.poll, true, CYW43_LINK_DOWN, 5, 0⟩
    let main := fun now => WifiAct.main now (-3) joinConfig
    let before := [main 10, main 11, main 12, main 13, main 14, .callback 1000 (-3),
      main 10000015, main 10000016]
    let seen := Machine.trace WifiState.step WifiState.events s₀ before
    seen = [(11, .sees (-3)), (1000, .sees (-3)), (10000016, .sees (-3))] ∧
      ∀ e ∈ seen, e.2 = .sees (-3) ∨ e.1 + 1000 * rejoinDelay (-3) < 10000021 := by
  intro s₀ main before seen
  refine ⟨by decide +kernel, ?_⟩
  have hrejoins := @rejoin_after_delay ℚ s₀ _ before
    [main 10000018, .callback 10000019 CYW43_LINK_UP, main 10000020] (main 10000017)
    (main 10000021) (by decide +kernel) rfl (-3) (by decide +kernel) (by decide +kernel)
    (by decide +kernel) 10000021 (some ⟨"net".toList, "secret".toList, .wpa2AesPsk⟩)
    (by decide +kernel)
  exact hrejoins.2

/-! ## Attempts go on -/

/-- The period of the look at the link, in µs. -/
def WIFI_CHECK_PERIOD : Nat := 1000 * 1500

/-- The time of a step of the main loop. -/
def WifiAct.mainTime : WifiAct F → Option Nat
  | .main now _ _ => some now
  | _ => none

/-- The link is found in the state `status`, the settings allow an attempt, and the clock has
64 bits. -/
def WifiAct.Finds (status : Int) : WifiAct F → Prop
  | .main now link cfg => link = status ∧ (wifiRejoinRequest cfg).isSome ∧ now < 2 ^ 64
  | .command _ => True
  | .callback _ link => link = status

instance (status : Int) : (a : WifiAct F) → Decidable (a.Finds status)
  | .main now link cfg =>
    inferInstanceAs (Decidable (link = status ∧ (wifiRejoinRequest cfg).isSome ∧ now < 2 ^ 64))
  | .command _ => inferInstanceAs (Decidable True)
  | .callback _ link => inferInstanceAs (Decidable (link = status))

/-- The requests that go to the driver. -/
def WifiState.requests (s : WifiState) (a : WifiAct F) : List (Nat × JoinRequest) :=
  (s.events a).filterMap fun e =>
    match e with
    | (t, .rejoins (some request)) => some (t, request)
    | _ => none

/-- The steps of the main loop between its `time_passed` and here. -/
def WifiPc.lag : WifiPc → Nat
  | .look => 1
  | .compare _ => 2
  | .timer _ => 3
  | .elapsed _ _ => 4
  | .rejoin => 5
  | _ => 0

theorem WifiPc.lag_le (pc : WifiPc) : pc.lag ≤ 6 := by
  cases pc with
  | poll => exact Nat.zero_le 6
  | look => exact Nat.le_add_left 1 5
  | compare status => exact Nat.le_add_left 2 4
  | store status => exact Nat.zero_le 6
  | stamp => exact Nat.zero_le 6
  | timer status => exact Nat.le_add_left 3 3
  | elapsed status c => exact Nat.le_add_left 4 2
  | rejoin => exact Nat.le_add_left 5 1

/-- Where `wifi_poll` can be while the link stays in the bad state `status`: `change` and
`check` are the two times it keeps. -/
def WifiPc.Stays (status : Int) (change check : Nat) : WifiPc → Prop
  | .poll => check ≤ change + 1000 * rejoinDelay status
  | .look => True
  | .compare status' => status' = status
  | .timer status' => status' = status
  | .elapsed status' c => status' = status ∧ c = change
  | .rejoin => True
  | _ => False

namespace WifiState

variable {t now : Nat} {s : WifiState} {log : List (Nat × JoinRequest)}

theorem le_of_not_timeElapsed {c ms : Nat} (hc : c ≤ now) (hnow : now < 2 ^ 64)
    (h : ¬timeElapsed c ms now = true) : now ≤ c + 1000 * ms := by
  rw [timeElapsed, absoluteTimeDiffUs, decide_eq_true_iff] at h
  omega

/-- While the link stays in the bad state `status` and the main loop does not take more than `d`
between two steps: the last one was at `t`, and the first attempt counted from `c`. -/
structure Stays (status : Int) (d c t : Nat) (s : WifiState) (log : List (Nat × JoinRequest)) :
    Prop where
  initialized : s.wifiInitialized = true
  wifiStatus : s.wifiStatus = status
  pc : s.pc.Stays status s.wifiStatusChange s.wifiStatusCheckT
  change_le : s.wifiStatusChange ≤ t
  check_le : s.wifiStatusCheckT ≤ t
  bound : t ≤ s.wifiStatusChange + 1000 * rejoinDelay status + WIFI_CHECK_PERIOD + s.pc.lag * d
  last : Machine.lastReading c (log.map Prod.fst) = s.wifiStatusChange
  chain : (c :: log.map Prod.fst).IsChain fun a b =>
    b ≤ a + 1000 * rejoinDelay status + WIFI_CHECK_PERIOD + 6 * d

section Stays

variable {status : Int} {d c : Nat}

/-- A step that leaves `wifi_status_change` alone. -/
theorem Stays.move (h : s.Stays status d c t log) (ht : t ≤ now) {pc : WifiPc} {check : Nat}
    (hpc : pc.Stays status s.wifiStatusChange check) (hcheck : check ≤ now)
    (hbound : now ≤ s.wifiStatusChange + 1000 * rejoinDelay status + WIFI_CHECK_PERIOD +
      pc.lag * d) :
    WifiState.Stays status d c now { s with pc := pc, wifiStatusCheckT := check } log where
  initialized := h.initialized
  wifiStatus := h.wifiStatus
  pc := hpc
  change_le := Nat.le_trans h.change_le ht
  check_le := hcheck
  bound := hbound
  last := h.last
  chain := h.chain

/-- A step to the next place of `wifi_poll`. -/
theorem Stays.next (h : s.Stays status d c t log) (ht : t ≤ now) (hd : now ≤ t + d) {pc : WifiPc}
    (hlag : pc.lag = s.pc.lag + 1) {check : Nat}
    (hpc : pc.Stays status s.wifiStatusChange check) (hcheck : check ≤ now) :
    WifiState.Stays status d c now { s with pc := pc, wifiStatusCheckT := check } log := by
  refine h.move ht hpc hcheck ?_
  have hbound := h.bound
  rw [hlag, Nat.succ_mul s.pc.lag d]
  omega

/-- An attempt. -/
theorem Stays.rejoin (h : s.Stays status d c t log) (hpc : s.pc = .rejoin) (ht : t ≤ now)
    (hd : now ≤ t + d) (request : JoinRequest) :
    WifiState.Stays status d c now { s with pc := .poll, wifiStatusChange := now }
      (log ++ [(now, request)]) where
  initialized := h.initialized
  wifiStatus := h.wifiStatus
  pc := Nat.le_trans (Nat.le_trans h.check_le ht) (Nat.le_add_right _ _)
  change_le := Nat.le_refl now
  check_le := Nat.le_trans h.check_le ht
  bound := Nat.le_add_right_of_le (Nat.le_add_right_of_le (Nat.le_add_right _ _))
  last := by
    rw [List.map_append]
    exact List.getLast_append_singleton (c :: log.map Prod.fst)
  chain := by
    rw [List.map_append]
    refine Machine.isChain_cons_snoc h.chain ?_
    have hbound := h.bound
    rw [hpc] at hbound
    change t ≤ _ + 5 * d at hbound
    change now ≤ Machine.lastReading c (log.map Prod.fst) + _ + _ + _
    rw [h.last]
    omega

theorem requests_quiet {a : WifiAct F} (hpc : s.pc ≠ .rejoin) : s.requests a = [] := by
  rw [requests, List.filterMap_eq_nil_iff]
  rintro ⟨u, status | request⟩ he
  · rfl
  · exact absurd (rejoins_mem_events he).1 hpc

theorem Stays.main (h : s.Stays status d c t log) (hbad : status ≠ CYW43_LINK_UP)
    {cfg : SystemConfig F} (hcfg : (wifiRejoinRequest cfg).isSome) (hnow : now < 2 ^ 64)
    (ht : t ≤ now) (hd : now ≤ t + d) :
    (s.mainStep now status).Stays status d c now
      (log ++ s.requests (.main now status cfg)) := by
  have hpc := h.pc
  have hcheck := Nat.le_trans h.check_le ht
  rw [mainStep]
  cases heq : s.pc with
  | poll =>
    rw [heq] at hpc
    rw [requests_quiet (by rw [heq]; simp), List.append_nil]
    dsimp only
    rw [if_pos h.initialized, timePassed]
    split
    · exact h.next ht hd (by rw [heq]; rfl) trivial (Nat.le_refl now)
    · rename_i hdue
      rw [not_or, Nat.not_lt] at hdue
      refine h.move ht hpc hcheck ?_
      exact Nat.le_add_right_of_le (Nat.le_trans hdue.2 (Nat.add_le_add_right hpc _))
  | look =>
    rw [requests_quiet (by rw [heq]; simp), List.append_nil]
    exact h.next ht hd (by rw [heq]; rfl) rfl hcheck
  | compare status' =>
    rw [heq] at hpc
    obtain rfl : status' = status := hpc
    rw [requests_quiet (by rw [heq]; simp), List.append_nil]
    dsimp only
    rw [if_neg (not_not.mpr h.wifiStatus.symm), if_pos hbad]
    exact h.next ht hd (by rw [heq]; rfl) rfl hcheck
  | store status' =>
    rw [heq] at hpc
    exact hpc.elim
  | stamp =>
    rw [heq] at hpc
    exact hpc.elim
  | timer status' =>
    rw [heq] at hpc
    obtain rfl : status' = status := hpc
    rw [requests_quiet (by rw [heq]; simp), List.append_nil]
    exact h.next ht hd (by rw [heq]; rfl) ⟨rfl, rfl⟩ hcheck
  | elapsed status' c' =>
    rw [heq] at hpc
    obtain ⟨rfl, rfl⟩ : status' = status ∧ c' = s.wifiStatusChange := hpc
    rw [requests_quiet (by rw [heq]; simp), List.append_nil]
    dsimp only
    by_cases helapsed : timeElapsed s.wifiStatusChange (rejoinDelay status') now = true
    · rw [if_pos helapsed]
      exact h.next ht hd (by rw [heq]; rfl) trivial hcheck
    · rw [if_neg helapsed]
      have hearly := le_of_not_timeElapsed (Nat.le_trans h.change_le ht) hnow helapsed
      refine h.move ht ?_ hcheck ?_
      · exact Nat.le_trans hcheck hearly
      · exact Nat.le_add_right_of_le (Nat.le_add_right_of_le hearly)
  | rejoin =>
    obtain ⟨request, hrequest⟩ := Option.isSome_iff_exists.mp hcfg
    have hsent : s.requests (.main now status cfg) = [(now, request)] := by
      rw [requests, events, heq]
      dsimp only
      rw [if_pos h.initialized, hrequest]
      rfl
    rw [hsent]
    dsimp only
    rw [if_pos h.initialized]
    exact h.rejoin heq ht hd request

theorem Stays.command (h : s.Stays status d c t log) (a : WifiAct F) (ha : a = .command now) :
    (s.step a).Stays status d c t (log ++ s.requests a) := by
  subst ha
  have hbound := h.bound
  rw [show s.requests (.command now : WifiAct F) = [] from rfl, List.append_nil, step]
  split
  · rename_i hpc
    rw [hpc] at hbound
    refine h.move (Nat.le_refl t) trivial h.check_le ?_
    change t ≤ _ + 0 * d at hbound
    change t ≤ _ + 5 * d
    omega
  · exact h

theorem Stays.callback (h : s.Stays status d c t log) (now : Nat) :
    (s.step (.callback now status : WifiAct F)).Stays status d c t
      (log ++ s.requests (.callback now status : WifiAct F)) := by
  have hquiet : (s.checkStatus status now).1 = s := by
    rw [checkStatus, if_neg (not_not.mpr h.wifiStatus.symm)]
  rw [show s.requests (.callback now status : WifiAct F) = [] from rfl, List.append_nil, step,
    hquiet]
  exact h

/-- Callbacks and commands come between the steps of the main loop. -/
theorem Stays.step (h : s.Stays status d c t log) (hbad : status ≠ CYW43_LINK_UP)
    {a : WifiAct F} (ha : a.Finds status) :
    (a.mainTime = none → (s.step a).Stays status d c t (log ++ s.requests a)) ∧
      ∀ u, a.mainTime = some u → t ≤ u ∧ u ≤ t + d →
        (s.step a).Stays status d c u (log ++ s.requests a) := by
  cases a with
  | main now link cfg =>
    obtain ⟨rfl, hcfg, hnow⟩ := ha
    refine ⟨fun hnone => absurd hnone (Option.some_ne_none now), fun u hu ⟨ht, hd⟩ => ?_⟩
    obtain rfl : now = u := Option.some.inj hu
    exact h.main hbad hcfg hnow ht hd
  | command now =>
    exact ⟨fun _ => h.command _ rfl, fun u hu => absurd hu.symm (Option.some_ne_none u)⟩
  | callback now link =>
    obtain rfl : link = status := ha
    exact ⟨fun _ => h.callback now, fun u hu => absurd hu.symm (Option.some_ne_none u)⟩

end Stays

end WifiState

/-- **Attempts go on.** As long as the link stays in a bad state, the settings allow it and no
step of the main loop takes more than `d`, each attempt follows the one before it (or the change
of the state) after at most the delay, the period of the look at the link and six steps,
whatever callbacks and commands come between, and the last one is not further back. -/
theorem rejoins_go_on {s : WifiState} (hinit : s.wifiInitialized = true) (hpc : s.pc = .poll)
    (hbad : s.wifiStatus ≠ CYW43_LINK_UP) (hcheck : s.wifiStatusCheckT ≤ s.wifiStatusChange)
    {acts : List (WifiAct F)} (hacts : ∀ a ∈ acts, a.Finds s.wifiStatus) {d : Nat}
    (hclock : (s.wifiStatusChange :: acts.filterMap WifiAct.mainTime).IsChain
      fun a b => a ≤ b ∧ b ≤ a + d) :
    let attempts := (Machine.trace WifiState.step WifiState.requests s acts).map Prod.fst
    let wait := 1000 * rejoinDelay s.wifiStatus + WIFI_CHECK_PERIOD + 6 * d
    ((s.wifiStatusChange :: attempts).IsChain fun a b => b ≤ a + wait) ∧
      Machine.lastReading s.wifiStatusChange (acts.filterMap WifiAct.mainTime) ≤
        Machine.lastReading s.wifiStatusChange attempts + wait := by
  intro attempts wait
  have hstart : s.Stays s.wifiStatus d s.wifiStatusChange s.wifiStatusChange [] :=
    ⟨hinit, rfl, by rw [hpc]; exact Nat.le_add_right_of_le hcheck, Nat.le_refl _, hcheck,
      Nat.le_add_right_of_le (Nat.le_add_right_of_le (Nat.le_add_right _ _)), rfl,
      List.isChain_singleton _⟩
  rw [← List.append_nil acts] at hclock
  have hend : (Machine.run WifiState.step s acts).Stays s.wifiStatus d s.wifiStatusChange
      (Machine.lastReading s.wifiStatusChange (acts.filterMap WifiAct.mainTime))
      ([] ++ Machine.trace WifiState.step WifiState.requests s acts) :=
    (Machine.timed_invariant (P := WifiState.Stays s.wifiStatus d s.wifiStatusChange)
      (fun t s' a log hs ha => hs.step hbad ha) hstart (Machine.within_of_forall hacts s) hclock).1
  rw [List.nil_append] at hend
  refine ⟨hend.chain.imp fun a b hab => by simpa only [wait, Nat.add_assoc] using hab, ?_⟩
  have hbound := hend.bound
  have hlag := Nat.mul_le_mul_right d (Machine.run WifiState.step s acts).pc.lag_le
  rw [← hend.last] at hbound
  simp only [wait, attempts]
  omega

/-- A main loop that takes up to six seconds for a step. -/
theorem rejoins_go_on_slow :
    let s : WifiState := ⟨.poll, true, -3, 13, 10⟩
    let main := fun now => WifiAct.main now (-3) joinConfig
    let acts := [main 6000000, main 12000000, main 12000001, .callback 12000002 (-3),
      main 12000003, main 12000004, main 12000005]
    Machine.trace WifiState.step WifiState.requests s acts =
        [(12000005, ⟨"net".toList, "secret".toList, .wpa2AesPsk⟩)] ∧
      12000005 ≤ 13 + (1000 * rejoinDelay (-3) + WIFI_CHECK_PERIOD + 6 * 6000000) := by
  intro s main acts
  have htrace : Machine.trace WifiState.step WifiState.requests s acts =
      [(12000005, ⟨"net".toList, "secret".toList, .wpa2AesPsk⟩)] := by
    decide +kernel
  refine ⟨htrace, ?_⟩
  obtain ⟨hchain, -⟩ := @rejoins_go_on ℚ s rfl rfl (by decide) (by decide) acts
    (by decide +kernel) 6000000 (by decide +kernel)
  rw [htrace] at hchain
  exact (List.isChain_cons_cons.mp hchain).1

end LcdPico
