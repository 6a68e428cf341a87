import Mathlib
import Abacus.Client.Readiness
import Abacus.Proofs.Client.Calculate
import Abacus.Proofs.Client.Traffic

/-!
# Waiting until a service answers

A client that waits asks again after each refusal. The wait is over with the first answer, or when
there were as many refusals as it is patient for, or with the first pause that the clock refuses.

* `Session.Peer.Answers`: the far ends that answer a call;
* `Session.pause_of_none`, `Session.Clock.refusal?_usualDelay`: pauses that a clock takes;
* `Session.afterRefusals`: a session after some refused attempts, with a call and a pause for each;
* `Client.poll_of_le`, `Client.poll_of_lt`: what asking comes to, and the session afterwards, if the
  clock takes the pauses; `Client.poll_of_some`: if it does not; `Client.poll_cases`: in any case;
* `Client.waitUntilReady_of_le`, `Client.waitUntilReady_of_lt`, `Client.waitUntilReady_of_some`: the
  same for a client;
* `Client.attempts`, `Client.poll_eq`: all that happens in a wait;
* `Client.waitUntilReady_counts`: how many calls and pauses that is, and when the wait succeeds;
  `Client.waitUntilReady_refused`: a pause that the clock refuses, and an address that is unusable.
-/

namespace Abacus

open Session (Clock Event)

/-- A far end that answers a call: a service, or one with a body left to send back. -/
def Session.Peer.Answers : Session.Peer → Prop
  | .service _ => True
  | .replies bodies => bodies ≠ []

/-- Whether an event is a call, taken by the far end or not. -/
def Session.Event.isCall : Event → Bool
  | .call _ _ => true
  | _ => false

/-- Whether an event is a pause. -/
def Session.Event.isPause : Event → Bool
  | .sleep _ => true
  | _ => false

namespace Client

/-- The events of refused attempts. -/
def refusedAttempts (url : Url) (delay : Float) (n : ℕ) : List Event :=
  (List.replicate n [.call (indexCall url) false, .sleep delay]).flatten

end Client

/-- A session after refused attempts. -/
def Session.afterRefusals (url : Url) (delay : Float) (n : ℕ) (s : Session) : Session :=
  { s with
    refusals := s.refusals - n
    events := s.events ++ Client.refusedAttempts url delay n }

namespace Session

variable {url : Url} {delay : Float} {s : Session} {n : ℕ}

theorem afterRefusals_zero (s : Session) : s.afterRefusals url delay 0 = s := by
  simp [afterRefusals, Client.refusedAttempts]

/-- Refused attempts one after another. -/
theorem afterRefusals_succ (s : Session) (n : ℕ) :
    (s.afterRefusals url delay 1).afterRefusals url delay n =
      s.afterRefusals url delay (n + 1) := by
  simp only [afterRefusals, Client.refusedAttempts, List.replicate_succ, List.replicate_zero,
    List.flatten_cons, List.flatten_nil, List.append_nil, List.append_assoc, Nat.sub_sub,
    Nat.add_comm]

theorem follows_afterRefusals (s : Session) (n : ℕ) :
    s.Follows (s.afterRefusals url delay n) := by
  refine ⟨rfl, Client.refusedAttempts url delay n, rfl, fun e he => ?_⟩
  obtain ⟨attempt, hattempt, hmem⟩ := List.mem_flatten.1 he
  rw [List.eq_of_mem_replicate hattempt] at hmem
  simp only [List.mem_cons, List.not_mem_nil, or_false] at hmem
  rcases hmem with rfl | rfl <;> trivial

/-- A refused attempt and the pause after it. -/
theorem exchange_of_refusal (h : 0 < s.refusals) :
    ∃ s', s.exchange (Client.indexCall url) = (none, s') ∧
      s'.events = s.events ++ [.call (Client.indexCall url) false] ∧
      s'.note (.sleep delay) = s.afterRefusals url delay 1 := by
  refine ⟨_, by rw [exchange, if_pos h], rfl, ?_⟩
  simp [note, afterRefusals, Client.refusedAttempts]

/-! ### Clocks -/

theorem pause_of_none (h : s.clock.refusal? delay = none) :
    s.pause delay = .ok (s.note (.sleep delay)) := by
  rw [pause, h]

theorem pause_of_some {e : PauseError} (h : s.clock.refusal? delay = some e) :
    s.pause delay = .error e := by
  rw [pause, h]

/-- Every clock takes the usual pause. -/
theorem Clock.refusal?_usualDelay (c : Clock) : c.refusal? Client.usualDelay = none := by
  cases c <;> rfl

/-- A call leaves the clock alone. -/
theorem clock_exchange (s : Session) (c : Call) : (s.exchange c).2.clock = s.clock := by
  rw [exchange]
  split_ifs
  · rfl
  · split <;> rfl

/-- A far end that answers takes the call when no refusal is left. -/
theorem exchange_of_answers (hanswers : s.peer.Answers) (h : s.refusals = 0) (call : Call) :
    ∃ response s', s.exchange call = (some response, s') ∧
      s'.events = s.events ++ [.call call true] := by
  rw [exchange, h, if_neg (Nat.lt_irrefl 0)]
  cases hpeer : s.peer with
  | service settings => exact ⟨_, _, rfl, rfl⟩
  | replies bodies =>
    cases bodies with
    | nil =>
      rw [hpeer] at hanswers
      exact absurd rfl hanswers
    | cons body rest => exact ⟨_, _, rfl, rfl⟩

end Session

namespace Client

variable {url : Url} {delay : Float} {s : Session} {retries : ℕ}

/-- Without refusals the far end answers at once, and no pause is due. -/
theorem poll_of_answers (hanswers : s.peer.Answers) (h : s.refusals = 0) :
    poll url delay (retries + 1) s = (.ok true, (s.exchange (indexCall url)).2) := by
  obtain ⟨response, s', hexchange, -⟩ := s.exchange_of_answers hanswers h (indexCall url)
  rw [poll, hexchange]

/-- An attempt that is refused leaves the rest of the wait, if the clock takes the pause. -/
theorem poll_of_refusal (hclock : s.clock.refusal? delay = none) (h : 0 < s.refusals)
    (retries : ℕ) :
    poll url delay (retries + 1) s = poll url delay retries (s.afterRefusals url delay 1) := by
  obtain ⟨s', hexchange, -, hnote⟩ := s.exchange_of_refusal h
  have hsame : s'.clock = s.clock := by
    rw [← s.clock_exchange (indexCall url), hexchange]
  rw [poll, hexchange]
  dsimp only
  rw [Session.pause_of_none (hsame ▸ hclock), hnote]

/-- **A pause that the clock refuses** ends the wait: it is due after the first refused call. -/
theorem poll_of_some {e : PauseError} (hclock : s.clock.refusal? delay = some e)
    (h : 0 < s.refusals) :
    ∃ s', (∀ retries, poll url delay (retries + 1) s = (.error e, s')) ∧
      s'.events = s.events ++ [.call (indexCall url) false] := by
  obtain ⟨s', hexchange, hevents, -⟩ := @Session.exchange_of_refusal url delay s h
  have hsame : s'.clock = s.clock := by
    rw [← s.clock_exchange (indexCall url), hexchange]
  refine ⟨s', fun retries => ?_, hevents⟩
  rw [poll, hexchange]
  dsimp only
  rw [Session.pause_of_some (hsame ▸ hclock)]

/-- **Too many refusals**: nobody answered, and there was a call and a pause for each attempt. -/
theorem poll_of_le (hclock : s.clock.refusal? delay = none) (h : retries ≤ s.refusals) :
    poll url delay retries s = (.ok false, s.afterRefusals url delay retries) := by
  induction retries generalizing s with
  | zero => rw [poll, Session.afterRefusals_zero]
  | succ retries ih =>
    have hrest : retries ≤ (s.afterRefusals url delay 1).refusals := Nat.le_sub_of_add_le h
    rw [poll_of_refusal hclock (by omega), ih (s := s.afterRefusals url delay 1) hclock hrest,
      Session.afterRefusals_succ]

/-- **Few enough refusals**: the far end answers after them. -/
theorem poll_of_lt (hclock : s.clock.refusal? delay = none) (hanswers : s.peer.Answers)
    (h : s.refusals < retries) :
    poll url delay retries s =
      (.ok true, ((s.afterRefusals url delay s.refusals).exchange (indexCall url)).2) := by
  induction retries generalizing s with
  | zero => exact absurd h (Nat.not_lt_zero _)
  | succ retries ih =>
    rcases Nat.eq_zero_or_pos s.refusals with hzero | hpos
    · rw [hzero, Session.afterRefusals_zero, poll_of_answers hanswers hzero]
    · have hrefusals : (s.afterRefusals url delay 1).refusals = s.refusals - 1 := rfl
      have hrest : (s.afterRefusals url delay 1).refusals < retries := by omega
      rw [poll_of_refusal hclock hpos,
        ih (s := s.afterRefusals url delay 1) hclock hanswers hrest, hrefusals,
        Session.afterRefusals_succ, Nat.sub_add_cancel hpos]

/-- **Asking comes to an answer of yes or no**, or to an error of the clock. -/
theorem poll_cases (url : Url) (delay : Float) (retries : ℕ) (s : Session) :
    (∃ ready, (poll url delay retries s).1 = .ok ready) ∨
      ∃ e, s.clock.refusal? delay = some e ∧ (poll url delay retries s).1 = .error e := by
  induction retries generalizing s with
  | zero => exact .inl ⟨false, rfl⟩
  | succ retries ih =>
    have hsame := s.clock_exchange (indexCall url)
    rw [poll]
    rcases hexchange : s.exchange (indexCall url) with ⟨_ | response, s'⟩
    · rw [hexchange] at hsame
      dsimp only at hsame ⊢
      cases hclock : s'.clock.refusal? delay with
      | some e =>
        rw [Session.pause_of_some hclock]
        exact .inr ⟨e, hsame ▸ hclock, rfl⟩
      | none =>
        rw [Session.pause_of_none hclock, ← hsame]
        exact ih (s'.note (.sleep delay))
    · exact .inl ⟨true, rfl⟩

/-! ## Clients -/

variable {c : Client} {bits : BitVec 32} {s' : Session}

/-- A client that waits opens its connections and asks. -/
theorem waitUntilReady_eq (hconnect : c.connect s = .ok (url, s')) (retries : ℤ)
    (delay : Float) :
    c.waitUntilReady retries delay s =
      ((poll url delay retries.toNat s').1.mapError .pause,
        (poll url delay retries.toNat s').2) := by
  rw [waitUntilReady, hconnect]

/-- **A client that was refused too often** has sent nothing but calls for the index. -/
theorem waitUntilReady_of_le (hhost : c.host = .v4 bits) (hport : c.port ≤ 65535) {retries : ℤ}
    (h : retries ≤ s.refusals) (hclock : s.clock.refusal? delay = none) :
    ∃ url s', c.waitUntilReady retries delay s = (.ok false, s') ∧ s.Follows s' ∧
      s'.events = s.events ++ .connect c.address :: refusedAttempts url delay retries.toNat := by
  obtain ⟨url, hconnect, -⟩ := exists_connect hhost hport s
  refine ⟨url, (s.note (.connect c.address)).afterRefusals url delay retries.toNat, ?_, ?_, ?_⟩
  · have hle : retries.toNat ≤ (s.note (.connect c.address)).refusals := Int.toNat_le.2 h
    rw [waitUntilReady_eq hconnect, poll_of_le (s := s.note (.connect c.address)) hclock hle]
    rfl
  · exact (s.follows_connection _).trans (Session.follows_afterRefusals _ _)
  · simp [Session.afterRefusals, Session.note]

/-- **A client that was not refused too often** is answered by the service. -/
theorem waitUntilReady_of_lt (hhost : c.host = .v4 bits) (hport : c.port ≤ 65535)
    {settings : Settings} (hpeer : s.peer = .service settings) {retries : ℤ}
    (h : s.refusals < retries) (hclock : s.clock.refusal? delay = none) :
    ∃ url s', c.waitUntilReady retries delay s = (.ok true, s') ∧ s.Follows s' ∧
      s'.Serves settings ∧
      s'.events = s.events ++ .connect c.address ::
        (refusedAttempts url delay s.refusals ++ [.call (indexCall url) true]) := by
  obtain ⟨url, hconnect, -⟩ := exists_connect hhost hport s
  have hlt : (s.note (.connect c.address)).refusals < retries.toNat := Int.lt_toNat.2 h
  have hserves : ((s.note (.connect c.address)).afterRefusals url delay s.refusals).Serves
      settings := ⟨hpeer, Nat.sub_self _⟩
  obtain ⟨s', hexchange, hs', -, hevents⟩ := hserves.exchange_eq (indexCall url)
  have hfollows := Session.follows_exchange
    ((s.note (.connect c.address)).afterRefusals url delay s.refusals) (indexCall url)
  rw [hexchange] at hfollows
  refine ⟨url, s', ?_, ?_, hs', ?_⟩
  · have hpoll : poll url delay retries.toNat (s.note (.connect c.address)) = (.ok true, s') := by
      have hanswers : (s.note (.connect c.address)).peer.Answers := by
        rw [show (s.note (.connect c.address)).peer = .service settings from hpeer]
        trivial
      rw [poll_of_lt (s := s.note (.connect c.address)) hclock hanswers hlt]
      exact congrArg (fun r => (Except.ok true, r.2)) hexchange
    rw [waitUntilReady_eq hconnect, hpoll]
    rfl
  · exact ((s.follows_connection _).trans (Session.follows_afterRefusals _ _)).trans hfollows
  · rw [hevents]
    simp [Session.afterRefusals, Session.note]

/-- **A client whose clock refuses the pause** has made one call, which was refused. -/
theorem waitUntilReady_of_some (hconnect : c.connect s = .ok (url, s')) {retries : ℤ}
    {delay : Float} {e : PauseError} (hclock : s'.clock.refusal? delay = some e)
    (hrefusals : 0 < s'.refusals) (hretries : 0 < retries) :
    ∃ final, c.waitUntilReady retries delay s = (.error (.pause e), final) ∧
      final.events = s'.events ++ [.call (indexCall url) false] := by
  obtain ⟨final, hpoll, hevents⟩ := @poll_of_some url delay s' e hclock hrefusals
  obtain ⟨n, hn⟩ := Nat.exists_eq_add_one_of_ne_zero (Int.lt_toNat.2 hretries).ne'
  refine ⟨final, ?_, hevents⟩
  rw [waitUntilReady_eq hconnect, hn, hpoll]
  rfl

/-! ## What a wait costs -/

/-- The events of a wait: refused attempts as long as there are refusals and patience, and the call
that is answered, if the patience lasts longer. -/
def attempts (url : Url) (delay : Float) (refusals retries : ℕ) : List Event :=
  refusedAttempts url delay (min refusals retries) ++
    if refusals < retries then [.call (indexCall url) true] else []

/-- No pause is due, or the clock takes it. -/
def Paced (clock : Clock) (delay : Float) (refusals retries : ℕ) : Prop :=
  clock.refusal? delay = none ∨ refusals = 0 ∨ retries = 0

/-- **What asking comes to**: an answer if the patience lasts longer than the refusals. -/
theorem poll_eq (hanswers : s.peer.Answers) (h : Paced s.clock delay s.refusals retries) :
    ∃ s', poll url delay retries s = (.ok (decide (s.refusals < retries)), s') ∧
      s'.events = s.events ++ attempts url delay s.refusals retries := by
  have hanswer := (s.afterRefusals url delay s.refusals).exchange_of_answers hanswers
    (Nat.sub_self _) (indexCall url)
  rcases le_or_gt retries s.refusals with hle | hlt
  · have hpoll : poll url delay retries s = (.ok false, s.afterRefusals url delay retries) := by
      rcases h with hclock | hzero | rfl
      · exact poll_of_le hclock hle
      · obtain rfl : retries = 0 := by omega
        rw [poll, Session.afterRefusals_zero]
      · rw [poll, Session.afterRefusals_zero]
    refine ⟨_, by rw [hpoll, decide_eq_false (not_lt.2 hle)], ?_⟩
    rw [attempts, if_neg (not_lt.2 hle), Nat.min_eq_right hle, List.append_nil]
    rfl
  · have hpoll : poll url delay retries s =
        (.ok true, ((s.afterRefusals url delay s.refusals).exchange (indexCall url)).2) := by
      rcases h with hclock | hzero | rfl
      · exact poll_of_lt hclock hanswers hlt
      · obtain ⟨more, rfl⟩ := Nat.exists_eq_add_one_of_ne_zero (Nat.ne_zero_of_lt hlt)
        rw [hzero, Session.afterRefusals_zero, poll_of_answers hanswers hzero]
      · exact absurd hlt (Nat.not_lt_zero _)
    refine ⟨_, by rw [hpoll, decide_eq_true hlt], ?_⟩
    obtain ⟨response, s', hexchange, hevents⟩ := hanswer
    rw [hexchange, hevents, attempts, if_pos hlt, Nat.min_eq_left hlt.le]
    exact List.append_assoc _ _ _

/-- **More patience than enough** makes no difference. -/
theorem poll_congr (hanswers : s.peer.Answers) {more : ℕ} (h : s.refusals < retries)
    (hmore : s.refusals < more) : poll url delay more s = poll url delay retries s := by
  cases hclock : s.clock.refusal? delay with
  | none => rw [poll_of_lt hclock hanswers h, poll_of_lt hclock hanswers hmore]
  | some e =>
    obtain ⟨n, rfl⟩ := Nat.exists_eq_add_one_of_ne_zero (Nat.ne_zero_of_lt h)
    obtain ⟨m, rfl⟩ := Nat.exists_eq_add_one_of_ne_zero (Nat.ne_zero_of_lt hmore)
    rcases Nat.eq_zero_or_pos s.refusals with hzero | hpos
    · rw [poll_of_answers hanswers hzero, poll_of_answers hanswers hzero]
    · obtain ⟨s', hpoll, -⟩ := @poll_of_some url delay s e hclock hpos
      rw [hpoll, hpoll]

theorem countP_refusedAttempts (p : Event → Bool) (n : ℕ) :
    (refusedAttempts url delay n).countP p =
      n * [.call (indexCall url) false, .sleep delay].countP p := by
  rw [refusedAttempts, List.countP_flatten, List.map_replicate, List.sum_replicate, smul_eq_mul]

section

variable {refusals : ℕ}

theorem countP_isCall_attempts :
    (attempts url delay refusals retries).countP Event.isCall = min (refusals + 1) retries := by
  have hone : [Event.call (indexCall url) false, .sleep delay].countP Event.isCall = 1 := rfl
  have hlast : [Event.call (indexCall url) true].countP Event.isCall = 1 := rfl
  rw [attempts, List.countP_append, countP_refusedAttempts, hone]
  split_ifs with h
  · rw [hlast]
    omega
  · rw [List.countP_nil]
    omega

theorem countP_isPause_attempts :
    (attempts url delay refusals retries).countP Event.isPause = min refusals retries := by
  have hone : [Event.call (indexCall url) false, .sleep delay].countP Event.isPause = 1 := rfl
  have hlast : [Event.call (indexCall url) true].countP Event.isPause = 0 := rfl
  rw [attempts, List.countP_append, countP_refusedAttempts, hone, mul_one]
  split_ifs
  · rw [hlast, add_zero]
  · rw [List.countP_nil, add_zero]

/-- Every pause of a wait is equally long. -/
theorem eq_of_sleep_mem_attempts {d : Float}
    (h : Event.sleep d ∈ attempts url delay refusals retries) : d = delay := by
  rcases List.mem_append.1 h with h | h
  · obtain ⟨attempt, hattempt, hmem⟩ := List.mem_flatten.1 h
    rw [List.eq_of_mem_replicate hattempt] at hmem
    simpa using hmem
  · split_ifs at h
    · simp at h
    · simp at h

end

/-- The outcome and the events of a wait. -/
theorem exists_waitUntilReady_eq (hconnect : c.connect s = .ok (url, s'))
    (hanswers : s'.peer.Answers) {retries : ℤ} {delay : Float}
    (h : Paced s'.clock delay s'.refusals retries.toNat) :
    ∃ final, c.waitUntilReady retries delay s = (.ok (decide (s'.refusals < retries)), final) ∧
      final.events = s'.events ++ attempts url delay s'.refusals retries.toNat := by
  obtain ⟨final, hpoll, hevents⟩ := @poll_eq url delay s' retries.toNat hanswers h
  refine ⟨final, ?_, hevents⟩
  rw [waitUntilReady_eq hconnect, hpoll, decide_eq_decide.2 Int.lt_toNat]
  rfl

/-- **Which waits succeed.** -/
theorem waitUntilReady_eq_ok_true_iff (hconnect : c.connect s = .ok (url, s'))
    (hanswers : s'.peer.Answers) {retries : ℤ} {delay : Float} :
    (c.waitUntilReady retries delay s).1 = .ok true ↔
      s'.refusals < retries ∧ Paced s'.clock delay s'.refusals retries.toNat := by
  by_cases hpaced : Paced s'.clock delay s'.refusals retries.toNat
  · obtain ⟨final, hfinal, -⟩ := exists_waitUntilReady_eq hconnect hanswers hpaced
    rw [hfinal, and_iff_left hpaced, Except.ok.injEq, decide_eq_true_eq]
  · refine iff_of_false ?_ fun h => hpaced h.2
    rw [Paced, not_or, not_or, Int.toNat_eq_zero, not_le] at hpaced
    obtain ⟨e, he⟩ := Option.ne_none_iff_exists'.1 hpaced.1
    obtain ⟨final, hfinal, -⟩ :=
      waitUntilReady_of_some hconnect he (Nat.pos_of_ne_zero hpaced.2.1) hpaced.2.2
    rw [hfinal]
    rintro ⟨⟩

/-- **A wait counts exactly.** Let the address of a client be usable and the far end answer once it
takes connections. However many connections are refused first, however patient the client is (a
negative number is no patience at all) and however long it pauses, unless a pause is due that the
clock refuses: each refused call is followed by its pause, and the call that is answered, if there
is one, comes last. The calls are one more than the refusals and the pauses are as many as these,
neither of them more than the client is patient for. The wait succeeds exactly if the patience lasts
longer than the refusals. If a pause is due that the clock refuses, the wait ends with that error
after one call and without a pause. Be that as it may, more patience never makes a wait fail, and
makes no difference once it is enough. -/
theorem waitUntilReady_counts (hurl : Url.ofText c.address = .ok url)
    (hanswers : s.peer.Answers) (delay : Float) :
    let wait (refusals : ℕ) (retries : ℤ) :=
      c.waitUntilReady retries delay { s with refusals := refusals }
    (∀ (refusals : ℕ) (retries : ℤ),
      s.clock.refusal? delay = none ∨ refusals = 0 ∨ retries ≤ 0 → ∃ es : List Event,
        (wait refusals retries).1 = .ok (decide (refusals < retries)) ∧
        (wait refusals retries).2.events = s.events ++ .connect c.address :: es ∧
        es = (List.replicate (min refusals retries.toNat)
            [.call (indexCall url) false, .sleep delay]).flatten ++
          (if refusals < retries then [.call (indexCall url) true] else []) ∧
        (es.countP Event.isCall : ℤ) = min ((refusals : ℤ) + 1) (max retries 0) ∧
        (es.countP Event.isPause : ℤ) = min (refusals : ℤ) (max retries 0) ∧
        ∀ d, .sleep d ∈ es → d = delay) ∧
    (∀ (refusals : ℕ) (retries : ℤ) (e : PauseError), s.clock.refusal? delay = some e →
      0 < refusals → 0 < retries → (wait refusals retries).1 = .error (.pause e) ∧
        (wait refusals retries).2.events =
          s.events ++ [.connect c.address, .call (indexCall url) false]) ∧
    (Monotone fun retries => {refusals | (wait refusals retries).1 = .ok true}) ∧
    ∀ (refusals : ℕ) (retries more : ℤ), refusals < retries → refusals < more →
      wait refusals more = wait refusals retries := by
  intro wait
  let opened (refusals : ℕ) : Session :=
    Session.note { s with refusals := refusals } (.connect c.address)
  have hconnect : ∀ refusals : ℕ,
      c.connect { s with refusals := refusals } = .ok (url, opened refusals) := by
    intro refusals
    rw [connect, hurl]
  have hpaced : ∀ {refusals : ℕ} {retries : ℤ}, Paced s.clock delay refusals retries.toNat ↔
      s.clock.refusal? delay = none ∨ refusals = 0 ∨ retries ≤ 0 := by
    intro refusals retries
    rw [Paced, Int.toNat_eq_zero]
  refine ⟨fun refusals retries h => ?_, fun refusals retries e he hpos hretries => ?_,
    fun retries more hle refusals h => ?_, fun refusals retries more hretries hmore => ?_⟩
  · obtain ⟨final, hfinal, hevents⟩ :=
      exists_waitUntilReady_eq (hconnect refusals) hanswers (hpaced.2 h)
    refine ⟨attempts url delay refusals retries.toNat, congrArg Prod.fst hfinal, ?_, ?_, ?_, ?_,
      fun d => eq_of_sleep_mem_attempts⟩
    · change (c.waitUntilReady _ _ _).2.events = _
      rw [hfinal, hevents]
      exact List.append_assoc _ _ _
    · rw [attempts, refusedAttempts]
      simp only [Int.lt_toNat]
    · rw [countP_isCall_attempts]
      omega
    · rw [countP_isPause_attempts]
      omega
  · obtain ⟨final, hfinal, hevents⟩ :=
      waitUntilReady_of_some (hconnect refusals) he hpos hretries
    change (c.waitUntilReady _ _ _).1 = _ ∧ (c.waitUntilReady _ _ _).2.events = _
    rw [hfinal, hevents]
    exact ⟨rfl, List.append_assoc _ _ _⟩
  · rw [Set.mem_ofPred_eq, waitUntilReady_eq_ok_true_iff (hconnect refusals) hanswers] at h ⊢
    refine ⟨h.1.trans_le hle, hpaced.2 ?_⟩
    rcases hpaced.1 h.2 with hclock | hzero | hnone
    · exact .inl hclock
    · exact .inr (.inl hzero)
    · exact absurd (h.1.trans_le hnone) (Int.natCast_nonneg _).not_gt
  · change c.waitUntilReady _ _ _ = c.waitUntilReady _ _ _
    rw [waitUntilReady_eq (hconnect refusals), waitUntilReady_eq (hconnect refusals),
      poll_congr (s := opened refusals) hanswers (Int.lt_toNat.2 hretries) (Int.lt_toNat.2 hmore)]

/-- Three refusals and a clock that waits: no patience, just not enough of it, and just enough; and
a negative pause, which ends the wait unless no patience is left for it. -/
theorem waitUntilReady_counts_three_refusals :
    let url : Url := ⟨none, .address .loopback, some 3000, [], none, none⟩
    let s := { Session.fresh .empty (.service .standard) 3 with clock := .waiting }
    Url.ofText standard.address = .ok url ∧ s.peer.Answers ∧
      (standard.waitUntilReady (-1) 0.5 s).1 = .ok false ∧
      (standard.waitUntilReady 3 0.5 s).1 = .ok false ∧
      (standard.waitUntilReady 4 0.5 s).1 = .ok true ∧
      (standard.waitUntilReady 9 0.5 s).2 = (standard.waitUntilReady 4 0.5 s).2 ∧
      (standard.waitUntilReady 0 (-1) s).1 = .ok false ∧
      (standard.waitUntilReady 4 (-1) s).1 = .error (.pause .negative) := by
  intro url s
  have hurl : Url.ofText standard.address = .ok url := by decide +kernel
  have hanswers : s.peer.Answers := trivial
  have hclock : s.clock.refusal? 0.5 = none := by rfl
  have hnegative : s.clock.refusal? (-1) = some .negative := by rfl
  obtain ⟨hwait, -, -, hmore⟩ := waitUntilReady_counts hurl hanswers 0.5
  obtain ⟨-, hnone, -⟩ := hwait 3 (-1) (.inl hclock)
  obtain ⟨-, hfew, -⟩ := hwait 3 3 (.inl hclock)
  obtain ⟨-, henough, -⟩ := hwait 3 4 (.inl hclock)
  obtain ⟨hidle, hrefused, -⟩ := waitUntilReady_counts hurl hanswers (-1)
  obtain ⟨-, hno, -⟩ := hidle 3 0 (.inr (.inr le_rfl))
  exact ⟨hurl, hanswers, hnone, hfew, henough,
    congrArg Prod.snd (hmore 3 4 9 (by decide) (by decide)), hno,
    (hrefused 3 4 .negative hnegative (by decide) (by decide)).1⟩

/-- One refusal and patience for two: a negative pause ends the wait after one call and without an
outcome. A client with a long host makes no call at all. -/
theorem waitUntilReady_refused :
    let s := { Session.fresh .empty (.service .standard) 1 with clock := .waiting }
    let long : Client := ⟨.v6 1 none, 3000, 10⟩
    s.peer.Answers ∧
      (standard.waitUntilReady 2 (-1) s).1 = .error (.pause .negative) ∧
      (standard.waitUntilReady 2 (-1) s).2.events.countP Event.isCall = 1 ∧
      (standard.waitUntilReady 2 (-1) s).2.events.countP Event.isPause = 0 ∧
      ofData [("host", .text "::1")] = .valid long ∧
      long.waitUntilReady 2 0.25 s = (.error .invalidAddress, s) ∧
      ¬∀ (c : Client) (delay : Float) (s : Session) (retries : ℤ), s.peer.Answers →
        (c.waitUntilReady retries delay s).1 = .ok (decide (s.refusals < retries)) ∧
          ((c.waitUntilReady retries delay s).2.events.countP Event.isCall : ℤ) =
            s.events.countP Event.isCall + min ((s.refusals : ℤ) + 1) (max retries 0) := by
  intro s long
  have hanswers : s.peer.Answers := trivial
  let url : Url := ⟨none, .address .loopback, some 3000, [], none, none⟩
  have hurl : Url.ofText standard.address = .ok url := by decide +kernel
  have hlong : Url.ofText long.address = .error .invalid := by decide +kernel
  have hconnect : standard.connect s = .ok (url, s.note (.connect standard.address)) := by
    rw [connect, hurl]
  have hclock : (s.note (.connect standard.address)).clock.refusal? (-1) = some .negative := by rfl
  obtain ⟨final, hfinal, hevents⟩ :=
    waitUntilReady_of_some hconnect hclock (by decide) (show (0 : ℤ) < 2 by decide)
  rw [hfinal, hevents]
  refine ⟨hanswers, rfl, rfl, rfl, rfl, ?_, fun hall => ?_⟩
  · rw [waitUntilReady, connect, hlong]
    rfl
  · have hready := (hall standard (-1) s 2 hanswers).1
    rw [hfinal] at hready
    cases hready

end Client

end Abacus
