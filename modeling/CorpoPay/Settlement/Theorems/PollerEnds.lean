import Mathlib.Algebra.Order.BigOperators.Group.Finset
import CorpoPay.Settlement.Poller

/-!
# The end of the poller

The poller reads the time it started at again in every invocation. The timeout is the age of an invocation, so a round that
begins late ends the loop only when the invocation that checks it has run for the whole duration.
-/

namespace CorpoPay.Settlement.Poller

open PollPoint (checked fetched queried waits written)
open Transaction.Durable (Invocation)

abbrev PollRun := Transaction.Durable.State PollStep PollStep.Result PollPoint

abbrev PollResults := (s : PollStep) → List s.Result

/-- The rounds that begin within the maximum duration, but for the first one. -/
def timelyRounds (provider : Provider) : Nat := maxDurationFor provider / POLL_INTERVAL_MS

/-- A round that begins late only fetches the intent and marks it, and it is the last one. -/
structure EndsInTime (provider : Provider) (t₀ : Nat) (σ : PollRun) : Prop where
  leaves : σ.history.Pairwise fun e e' =>
    e.1 = .pollDelay → t₀ + maxDurationFor provider < e.2 → e'.1 = .fetchIntent ∨ e'.1 = .markTimeoutFailed
  queries : (σ.results .queryProvider).length ≤ timelyRounds provider + 1
  steps : σ.history.length ≤ 4 * (timelyRounds provider + 2)

/-- The check of a round that began late is made by an invocation that has run for the maximum duration. -/
def LastsWhenLate (provider : Provider) (t₀ : Nat) (σ σ' : PollRun) : Prop :=
  ∀ i started intent b, σ.running = some i → i.point = .check started intent →
    (σ.began .pollDelay)[i.seen .pollDelay - 1]? = some b → t₀ + maxDurationFor provider < b →
    started + maxDurationFor provider ≤ σ'.clock

/-- No intent that the run has fetched is a pre-authorisation. -/
def NeverHeld (results : PollResults) : Prop :=
  ∀ intent, some intent ∈ results .fetchIntent → intent.isPreauth = false

/-! ## Rounds -/

/-- The queries and updates after a round, when the results of its steps are recorded and the loop goes on. -/
def afterRound (provider : Provider) (results : PollResults) (n : Nat) (c : Nat × Nat) : Option (Nat × Nat) :=
  match (results .fetchIntent)[n]? with
  | some (some intent) =>
      if waits provider intent then some c
      else
        match (results .queryProvider)[c.1]? with
        | some none => some (c.1 + 1, c.2)
        | some (some newStatus) =>
            if newStatus = intent.status then some (c.1 + 1, c.2)
            else if newStatus ∈ PaymentIntentStatus.TERMINAL then none
            else (results .updateStatus)[c.2]?.map fun _ => (c.1 + 1, c.2 + 1)
        | none => none
  | _ => none

/-- The queries and updates of the first rounds. -/
def counters (provider : Provider) (results : PollResults) : Nat → Option (Nat × Nat)
  | 0 => some (0, 0)
  | n + 1 => (counters provider results n).bind (afterRound provider results n)

variable {provider : Provider} {results results' : PollResults}

theorem afterRound_le {n : Nat} {c c' : Nat × Nat} (h : afterRound provider results n c = some c') :
    c'.1 ≤ c.1 + 1 ∧ c'.2 ≤ c.2 + 1 := by
  unfold afterRound at h
  split at h
  · split_ifs at h
    · cases h
      exact ⟨Nat.le_succ _, Nat.le_succ _⟩
    · split at h
      · cases h
        exact ⟨Nat.le_refl _, Nat.le_succ _⟩
      · split_ifs at h
        · cases h
          exact ⟨Nat.le_refl _, Nat.le_succ _⟩
        · obtain ⟨-, -, rfl⟩ := Option.map_eq_some_iff.mp h
          exact ⟨Nat.le_refl _, Nat.le_refl _⟩
      · cases h
  · cases h

theorem counters_le {n : Nat} {c : Nat × Nat} (h : counters provider results n = some c) : c.1 ≤ n ∧ c.2 ≤ n := by
  induction n generalizing c with
  | zero =>
    cases h
    exact ⟨Nat.le_refl _, Nat.le_refl _⟩
  | succ n ih =>
    obtain ⟨before, hbefore, hround⟩ := Option.bind_eq_some_iff.mp h
    have hle := ih hbefore
    have hstep := afterRound_le hround
    omega

theorem counters_of_le {n m : Nat} {c : Nat × Nat} (h : counters provider results n = some c) (hle : m ≤ n) :
    ∃ c', counters provider results m = some c' := by
  induction n, hle using Nat.le_induction generalizing c with
  | base => exact ⟨c, h⟩
  | succ n _ ih =>
    obtain ⟨before, hbefore, -⟩ := Option.bind_eq_some_iff.mp h
    exact ih hbefore

/-- More results leave the recorded ones as they are. -/
def Extends (results results' : PollResults) : Prop :=
  ∀ (s : PollStep) (n : Nat) (a : s.Result), (results s)[n]? = some a → (results' s)[n]? = some a

theorem extends_append (s : PollStep) (a : s.Result) : Extends results (Function.update results s (results s ++ [a])) := by
  intro s' n b hb
  by_cases hs : s' = s
  · subst hs
    obtain ⟨hlt, -⟩ := List.getElem?_eq_some_iff.mp hb
    rw [Function.update_self, List.getElem?_append_left hlt, hb]
  · rw [Function.update_of_ne hs, hb]

theorem afterRound_extends (h : Extends results results') {n : Nat} {c c' : Nat × Nat}
    (hround : afterRound provider results n c = some c') : afterRound provider results' n c = some c' := by
  unfold afterRound at hround ⊢
  split at hround
  · rename_i intent hfetch
    rw [h .fetchIntent n _ hfetch]
    dsimp only
    split_ifs at hround ⊢ with hwaits
    · exact hround
    · split at hround
      · rename_i hquery
        rw [h .queryProvider _ _ hquery]
        exact hround
      · rename_i newStatus hquery
        rw [h .queryProvider _ _ hquery]
        dsimp only
        split_ifs at hround ⊢ with hsame hterminal
        · exact hround
        · obtain ⟨⟨⟩, hupdate, rfl⟩ := Option.map_eq_some_iff.mp hround
          rw [h .updateStatus _ _ hupdate]
          rfl
      · cases hround
  · cases hround

theorem counters_extends (h : Extends results results') {n : Nat} {c : Nat × Nat}
    (hcounters : counters provider results n = some c) : counters provider results' n = some c := by
  induction n generalizing c with
  | zero => exact hcounters
  | succ n ih =>
    obtain ⟨before, hbefore, hround⟩ := Option.bind_eq_some_iff.mp hcounters
    exact Option.bind_eq_some_iff.mpr ⟨before, ih hbefore, afterRound_extends h hround⟩

/-! ## Where an invocation is -/

/-- The first rounds began in time. -/
def Timely (deadline : Nat) (delays : List Nat) (n : Nat) : Prop := ∀ j < n, ∀ b, delays[j]? = some b → b ≤ deadline

/-- An invocation came through `n` rounds, all of them in time, with `q` queries and `u` updates. -/
structure Passed (provider : Provider) (deadline : Nat) (results : PollResults) (delays : List Nat) (n q u : Nat) : Prop where
  counters : counters provider results n = some (q, u)
  timely : Timely deadline delays n

/-- An invocation is in round `n`, with an intent that it goes on with. -/
structure Fetched (results : PollResults) (seen : PollStep → Nat) (n : Nat) (intent : PaymentIntent) : Prop where
  delay : seen .pollDelay = n + 1
  fetch : seen .fetchIntent = n + 1
  intent : (results .fetchIntent)[n]? = some (some intent)
  mark : seen .markTimeoutFailed = 0
  notification : seen .sendNotification = 0

inductive Placed (provider : Provider) (deadline : Nat) (results : PollResults) (delays : List Nat) :
    Invocation PollStep PollPoint → Prop
  | start : Placed provider deadline results delays (durablePoller provider).fresh
  | loop {started : Nat} {seen : PollStep → Nat}
      (hpassed : Passed provider deadline results delays (seen .pollDelay) (seen .queryProvider) (seen .updateStatus))
      (hfetch : seen .fetchIntent = seen .pollDelay) (hmark : seen .markTimeoutFailed = 0)
      (hnotify : seen .sendNotification = 0) : Placed provider deadline results delays ⟨.loop started, seen⟩
  | fetch {started n : Nat} {seen : PollStep → Nat}
      (hpassed : Passed provider deadline results delays n (seen .queryProvider) (seen .updateStatus))
      (hdelay : seen .pollDelay = n + 1) (hfetch : seen .fetchIntent = n) (hmark : seen .markTimeoutFailed = 0)
      (hnotify : seen .sendNotification = 0) : Placed provider deadline results delays ⟨.fetch started, seen⟩
  | check {started n : Nat} {seen : PollStep → Nat} {intent : PaymentIntent}
      (hpassed : Passed provider deadline results delays n (seen .queryProvider) (seen .updateStatus))
      (hfetched : Fetched results seen n intent) : Placed provider deadline results delays ⟨.check started intent, seen⟩
  | timeout {seen : PollStep → Nat} (hmark : seen .markTimeoutFailed = 0) :
      Placed provider deadline results delays ⟨.timeout, seen⟩
  | query {started n : Nat} {seen : PollStep → Nat} {intent : PaymentIntent}
      (hpassed : Passed provider deadline results delays n (seen .queryProvider) (seen .updateStatus))
      (hfetched : Fetched results seen n intent) (htimely : Timely deadline delays (n + 1))
      (hwaits : ¬ waits provider intent) : Placed provider deadline results delays ⟨.query started intent, seen⟩
  | update {started n q : Nat} {seen : PollStep → Nat} {intent : PaymentIntent} {newStatus : PaymentIntentStatus}
      (hpassed : Passed provider deadline results delays n q (seen .updateStatus))
      (hfetched : Fetched results seen n intent) (htimely : Timely deadline delays (n + 1))
      (hwaits : ¬ waits provider intent) (hquery : (results .queryProvider)[q]? = some (some newStatus))
      (hseen : seen .queryProvider = q + 1) (hchanged : newStatus ≠ intent.status) :
      Placed provider deadline results delays ⟨.update started newStatus, seen⟩
  | notify {n : Nat} {seen : PollStep → Nat} (hdelay : seen .pollDelay = n + 1)
      (hnext : counters provider results (n + 1) = none) (htimely : Timely deadline delays (n + 1))
      (hnotify : seen .sendNotification = 0) : Placed provider deadline results delays ⟨.notify, seen⟩
  | done {seen : PollStep → Nat} : Placed provider deadline results delays ⟨.done, seen⟩

variable {deadline : Nat} {delays : List Nat} {i : Invocation PollStep PollPoint}

theorem Timely.succ {n : Nat} (h : Timely deadline delays n) (hlast : ∀ b, delays[n]? = some b → b ≤ deadline) :
    Timely deadline delays (n + 1) := by
  intro j hj b hb
  rcases Nat.lt_succ_iff_lt_or_eq.mp hj with hlt | rfl
  · exact h j hlt b hb
  · exact hlast b hb

theorem counters_succ {n : Nat} {c : Nat × Nat} (h : counters provider results n = some c) :
    counters provider results (n + 1) = afterRound provider results n c := by
  rw [counters, h, Option.bind_some]

theorem Fetched.queried {seen : PollStep → Nat} {n : Nat} {intent : PaymentIntent} (h : Fetched results seen n intent)
    (k : Nat) : Fetched results (Function.update seen .queryProvider k) n intent :=
  ⟨h.delay, h.fetch, h.intent, h.mark, h.notification⟩

theorem Fetched.updated {seen : PollStep → Nat} {n : Nat} {intent : PaymentIntent} (h : Fetched results seen n intent)
    (k : Nat) : Fetched results (Function.update seen .updateStatus k) n intent :=
  ⟨h.delay, h.fetch, h.intent, h.mark, h.notification⟩

/-- A round in time leads to the next one. -/
theorem Placed.next_round {started n : Nat} {seen : PollStep → Nat} {intent : PaymentIntent}
    (hfetched : Fetched results seen n intent) (htimely : Timely deadline delays (n + 1))
    (hcounters : counters provider results (n + 1) = some (seen .queryProvider, seen .updateStatus)) :
    Placed provider deadline results delays ⟨.loop started, seen⟩ := by
  refine .loop ⟨?_, ?_⟩ (hfetched.fetch.trans hfetched.delay.symm) hfetched.mark hfetched.notification
  · rwa [hfetched.delay]
  · rwa [hfetched.delay]

/-- A reading of the clock in time. -/
theorem Placed.now (h : Placed provider deadline results delays i) {next : Nat → PollPoint} {t : Nat}
    (hdeed : PollPoint.deed provider i.point = .now next)
    (hlasts : ∀ started intent b, i.point = .check started intent → delays[i.seen .pollDelay - 1]? = some b →
      deadline < b → started + maxDurationFor provider ≤ t) :
    Placed provider deadline results delays { i with point := next t } := by
  cases h with
  | start =>
    cases hdeed
    exact .loop ⟨rfl, fun j hj => absurd hj (Nat.not_lt_zero j)⟩ rfl rfl rfl
  | @check started n seen intent hpassed hfetched =>
    cases hdeed
    dsimp only [checked]
    split_ifs with htimeout hwaits
    · exact .timeout hfetched.mark
    all_goals
      have htimely : Timely deadline delays (n + 1) := hpassed.timely.succ fun b hb => by
        refine Nat.le_of_not_lt fun hlate => htimeout (hlasts started intent b rfl ?_ hlate)
        dsimp only
        rw [hfetched.delay, Nat.add_sub_cancel]
        exact hb
    · refine .next_round hfetched htimely ?_
      rw [counters_succ hpassed.counters, afterRound, hfetched.intent]
      simp only [hwaits, if_true]
    · exact .query hpassed hfetched htimely hwaits
  | loop => cases hdeed
  | fetch => cases hdeed
  | timeout => cases hdeed
  | query => cases hdeed
  | update => cases hdeed
  | notify => cases hdeed
  | done => cases hdeed

theorem afterRound_query {n : Nat} {c : Nat × Nat} {intent : PaymentIntent}
    (hintent : (results .fetchIntent)[n]? = some (some intent)) (hwaits : ¬ waits provider intent) :
    afterRound provider results n c =
      match (results .queryProvider)[c.1]? with
      | some none => some (c.1 + 1, c.2)
      | some (some newStatus) =>
          if newStatus = intent.status then some (c.1 + 1, c.2)
          else if newStatus ∈ PaymentIntentStatus.TERMINAL then none
          else (results .updateStatus)[c.2]?.map fun _ => (c.1 + 1, c.2 + 1)
      | none => none := by
  rw [afterRound, hintent]
  dsimp only
  rw [if_neg hwaits]

theorem afterRound_update {n : Nat} {c : Nat × Nat} {intent : PaymentIntent} {newStatus : PaymentIntentStatus}
    (hintent : (results .fetchIntent)[n]? = some (some intent)) (hwaits : ¬ waits provider intent)
    (hquery : (results .queryProvider)[c.1]? = some (some newStatus)) (hchanged : newStatus ≠ intent.status) :
    afterRound provider results n c =
      if newStatus ∈ PaymentIntentStatus.TERMINAL then none
      else (results .updateStatus)[c.2]?.map fun _ => (c.1 + 1, c.2 + 1) := by
  rw [afterRound_query hintent hwaits, hquery]
  dsimp only
  rw [if_neg hchanged]

/-- The answer of the provider. -/
theorem Placed.replay_query {started n : Nat} {seen : PollStep → Nat} {intent : PaymentIntent}
    {answer : Option PaymentIntentStatus}
    (hpassed : Passed provider deadline results delays n (seen .queryProvider) (seen .updateStatus))
    (hfetched : Fetched results seen n intent) (htimely : Timely deadline delays (n + 1)) (hwaits : ¬ waits provider intent)
    (ha : (results .queryProvider)[seen .queryProvider]? = some answer) :
    Placed provider deadline results delays
      ⟨queried started intent answer, Function.update seen .queryProvider (seen .queryProvider + 1)⟩ := by
  have hround := (counters_succ hpassed.counters).trans (afterRound_query hfetched.intent hwaits)
  rw [ha] at hround
  cases answer with
  | none => exact .next_round (hfetched.queried _) htimely hround
  | some newStatus =>
    rw [queried]
    split_ifs with hsame
    · exact .next_round (hfetched.queried _) htimely (hround.trans (if_pos hsame))
    · exact .update hpassed (hfetched.queried _) htimely hwaits ha rfl hsame

/-- The update after an answer that is another status. -/
theorem Placed.replay_update {started n q : Nat} {seen : PollStep → Nat} {intent : PaymentIntent}
    {newStatus : PaymentIntentStatus} {a : PollStep.updateStatus.Result}
    (hpassed : Passed provider deadline results delays n q (seen .updateStatus)) (hfetched : Fetched results seen n intent)
    (htimely : Timely deadline delays (n + 1)) (hwaits : ¬ waits provider intent)
    (hquery : (results .queryProvider)[q]? = some (some newStatus)) (hseen : seen .queryProvider = q + 1)
    (hchanged : newStatus ≠ intent.status) (ha : (results .updateStatus)[seen .updateStatus]? = some a) :
    Placed provider deadline results delays
      ⟨written started newStatus, Function.update seen .updateStatus (seen .updateStatus + 1)⟩ := by
  have hround := (counters_succ hpassed.counters).trans (afterRound_update hfetched.intent hwaits hquery hchanged)
  rw [ha, Option.map_some] at hround
  by_cases hterminal : newStatus ∈ PaymentIntentStatus.TERMINAL
  · rw [if_pos hterminal] at hround
    rw [written]
    split_ifs with hpaid hfailed
    · exact .notify hfetched.delay hround htimely hfetched.notification
    · exact .done
    · cases newStatus <;> simp [PaymentIntentStatus.TERMINAL] at hterminal hpaid hfailed
  · rw [if_neg hterminal] at hround
    rw [written, if_neg, if_neg]
    · refine .next_round (hfetched.updated _) htimely (hround.trans ?_)
      rw [← hseen]
      rfl
    · rintro (rfl | rfl) <;> exact hterminal (by decide)
    · rintro (rfl | rfl) <;> exact hterminal (by decide)

/-- A recorded step. -/
theorem Placed.replay (h : Placed provider deadline results delays i) (hheld : NeverHeld results) {s : PollStep}
    {next : s.Result → PollPoint} {a : s.Result} (hdeed : PollPoint.deed provider i.point = .step s next)
    (ha : (results s)[i.seen s]? = some a) :
    Placed provider deadline results delays { point := next a, seen := Function.update i.seen s (i.seen s + 1) } := by
  cases h with
  | start => cases hdeed
  | loop hpassed hfetch hmark hnotify =>
    cases hdeed
    exact .fetch hpassed rfl hfetch hmark hnotify
  | @fetch started n seen hpassed hdelay hfetch hmark hnotify =>
    cases hdeed
    dsimp only at ha
    cases a with
    | none => exact .done
    | some intent =>
      have hopen := hheld intent (List.mem_of_getElem? ha)
      rw [hfetch] at ha
      rw [fetched, hopen, if_neg Bool.false_ne_true]
      split_ifs
      · exact .done
      · exact .check hpassed ⟨hdelay, congrArg (· + 1) hfetch, ha, hmark, hnotify⟩
  | check => cases hdeed
  | timeout hmark =>
    cases hdeed
    exact .done
  | query hpassed hfetched htimely hwaits =>
    cases hdeed
    exact .replay_query hpassed hfetched htimely hwaits ha
  | update hpassed hfetched htimely hwaits hquery hseen hchanged =>
    cases hdeed
    exact .replay_update hpassed hfetched htimely hwaits hquery hseen hchanged ha
  | notify =>
    cases hdeed
    exact .done
  | done => cases hdeed

/-! ## Runs -/

/-- How often a step is executed at most. -/
def stepBound (provider : Provider) : PollStep → Nat
  | .pollDelay | .fetchIntent => timelyRounds provider + 2
  | .queryProvider | .updateStatus => timelyRounds provider + 1
  | .markTimeoutFailed | .sendNotification => 1

structure Sound (provider : Provider) (t₀ : Nat) (σ : PollRun) : Prop where
  recorded : (durablePoller provider).Recorded t₀ σ
  placed : ∀ i, σ.running = some i →
    Placed provider (t₀ + maxDurationFor provider) σ.results (σ.began .pollDelay) i
  rounds : ∀ n < (σ.results .pollDelay).length, ∃ c, counters provider σ.results n = some c
  leaves : σ.history.Pairwise fun e e' =>
    e.1 = .pollDelay → t₀ + maxDurationFor provider < e.2 → e'.1 = .fetchIntent ∨ e'.1 = .markTimeoutFailed
  counts : ∀ s, (σ.results s).length ≤ stepBound provider s

variable {t₀ : Nat} {σ σ' : PollRun}

/-- A round that began in time is one of the first. -/
theorem Timely.le (h : (durablePoller provider).Recorded t₀ σ) {k n : Nat}
    (htimely : Timely (t₀ + maxDurationFor provider) (σ.began .pollDelay) k) (hk : n < k)
    (hn : n < (σ.results .pollDelay).length) : n ≤ timelyRounds provider := by
  rw [← h.length] at hn
  have hb := List.getElem?_eq_getElem hn
  have hlow : t₀ + POLL_INTERVAL_MS * n ≤ _ := h.le_began hb
  have hhigh := htimely n hk _ hb
  refine (Nat.le_div_iff_mul_le (by decide)).mpr ?_
  rw [Nat.mul_comm]
  omega

theorem Timely.history (h : (durablePoller provider).Recorded t₀ σ) {k : Nat}
    (htimely : Timely (t₀ + maxDurationFor provider) (σ.began .pollDelay) k) (hk : (σ.results .pollDelay).length ≤ k)
    {e : PollStep × Nat} (he : e ∈ σ.history) (hdelay : e.1 = .pollDelay) : e.2 ≤ t₀ + maxDurationFor provider := by
  have hmem : e.2 ∈ σ.began .pollDelay :=
    List.mem_map.mpr ⟨e, List.mem_filter.mpr ⟨he, decide_eq_true hdelay⟩, rfl⟩
  obtain ⟨j, hj, hb⟩ := List.getElem_of_mem hmem
  rw [h.length] at hj
  exact htimely j (Nat.lt_of_lt_of_le hj hk) _ (List.getElem?_eq_some_iff.mpr ⟨_, hb⟩)

/-- The last round is the one that is not over. -/
theorem Sound.last_round (h : Sound provider t₀ σ) {n : Nat} (hnext : counters provider σ.results (n + 1) = none) :
    (σ.results .pollDelay).length ≤ n + 1 := by
  refine Nat.le_of_not_lt fun hlt => ?_
  obtain ⟨c, hc⟩ := h.rounds (n + 1) hlt
  rw [hnext] at hc
  cases hc

/-- Before a new step that is neither a fetch nor the timeout, every round began in time. -/
theorem Sound.frontier (h : Sound provider t₀ σ) (hrunning : σ.running = some i) {s : PollStep} {next : s.Result → PollPoint}
    (hdeed : PollPoint.deed provider i.point = .step s next) (hnew : (σ.results s)[i.seen s]? = none) :
    s = .fetchIntent ∨ s = .markTimeoutFailed ∨
      ∃ k, Timely (t₀ + maxDurationFor provider) (σ.began .pollDelay) k ∧ (σ.results .pollDelay).length ≤ k := by
  cases h.placed i hrunning with
  | start => cases hdeed
  | loop hpassed hfetch hmark hnotify =>
    cases hdeed
    exact .inr (.inr ⟨_, hpassed.timely, List.getElem?_eq_none_iff.mp hnew⟩)
  | fetch =>
    cases hdeed
    exact .inl rfl
  | check => cases hdeed
  | timeout =>
    cases hdeed
    exact .inr (.inl rfl)
  | @query started n seen intent hpassed hfetched htimely hwaits =>
    cases hdeed
    refine .inr (.inr ⟨_, htimely, h.last_round ?_⟩)
    rw [counters_succ hpassed.counters, afterRound_query hfetched.intent hwaits]
    dsimp only at hnew ⊢
    rw [hnew]
  | @update started n q seen intent newStatus hpassed hfetched htimely hwaits hquery hseen hchanged =>
    cases hdeed
    refine .inr (.inr ⟨_, htimely, h.last_round ?_⟩)
    rw [counters_succ hpassed.counters, afterRound_update hfetched.intent hwaits hquery hchanged]
    dsimp only at hnew ⊢
    rw [hnew, Option.map_none, ite_self]
  | @notify n seen hdelay hnext htimely hnotify =>
    cases hdeed
    exact .inr (.inr ⟨_, htimely, h.last_round hnext⟩)
  | done => cases hdeed

theorem Sound.bound (h : Sound provider t₀ σ) (hrunning : σ.running = some i) {s : PollStep} {next : s.Result → PollPoint}
    (hdeed : PollPoint.deed provider i.point = .step s next) (hnew : (σ.results s)[i.seen s]? = none) :
    (σ.results s).length < stepBound provider s := by
  have hlength := List.getElem?_eq_none_iff.mp hnew
  have hdelays := h.recorded.seen i hrunning .pollDelay
  cases h.placed i hrunning with
  | start => cases hdeed
  | loop hpassed hfetch hmark hnotify =>
    cases hdeed
    refine Nat.lt_succ_of_le ?_
    rcases Nat.eq_zero_or_pos (σ.results .pollDelay).length with hzero | hpos
    · exact hzero ▸ Nat.zero_le _
    · have hlast := hpassed.timely.le h.recorded (n := (σ.results .pollDelay).length - 1)
        (by dsimp only at hlength; omega) (by omega)
      omega
  | @fetch started n seen hpassed hdelay hfetch hmark hnotify =>
    cases hdeed
    have hcount := h.counts .pollDelay
    dsimp only [stepBound] at hlength hdelays hcount ⊢
    omega
  | check => cases hdeed
  | timeout hmark =>
    cases hdeed
    dsimp only [stepBound] at hlength ⊢
    omega
  | @query started n seen intent hpassed hfetched htimely hwaits =>
    cases hdeed
    have hle := (counters_le hpassed.counters).1
    have hdelay := hfetched.delay
    dsimp only [stepBound] at hlength hdelays hle ⊢
    have hlast := htimely.le h.recorded (Nat.lt_succ_self n) (by omega)
    omega
  | @update started n q seen intent newStatus hpassed hfetched htimely hwaits hquery hseen hchanged =>
    cases hdeed
    have hle := (counters_le hpassed.counters).2
    have hdelay := hfetched.delay
    dsimp only [stepBound] at hlength hdelays hle ⊢
    have hlast := htimely.le h.recorded (Nat.lt_succ_self n) (by omega)
    omega
  | notify hdelay hnext htimely hnotify =>
    cases hdeed
    dsimp only [stepBound] at hlength ⊢
    omega
  | done => cases hdeed

theorem sound_first : Sound provider t₀ ((durablePoller provider).first t₀) where
  recorded := Transaction.Durable.recorded_first
  placed i hi := by
    obtain rfl := Option.some.inj hi
    exact .start
  rounds n hn := absurd hn (Nat.not_lt_zero n)
  leaves := .nil
  counts _ := Nat.zero_le _

/-- While an invocation goes on, nothing is recorded. -/
theorem Sound.goes_on (h : Sound provider t₀ σ) {t : Nat} {j : Invocation PollStep PollPoint}
    (hrecorded : (durablePoller provider).Recorded t₀ { σ with clock := t, running := some j })
    (hplaced : Placed provider (t₀ + maxDurationFor provider) σ.results (σ.began .pollDelay) j) :
    Sound provider t₀ { σ with clock := t, running := some j } where
  recorded := hrecorded
  placed _ hi := by
    obtain rfl := Option.some.inj hi
    exact hplaced
  rounds := h.rounds
  leaves := h.leaves
  counts := h.counts

theorem Sound.execute (h : Sound provider t₀ σ) (hrunning : σ.running = some i) {s : PollStep} {next : s.Result → PollPoint}
    (hdeed : PollPoint.deed provider i.point = .step s next) (hnew : (σ.results s)[i.seen s]? = none) (a : s.Result) {t : Nat}
    (hclock : σ.clock + (durablePoller provider).lasts s ≤ t) :
    Sound provider t₀
      { clock := t, results := Function.update σ.results s (σ.results s ++ [a]), history := σ.history ++ [(s, σ.clock)]
        running := none } where
  recorded := h.recorded.execute s a hclock
  placed _ hi := by cases hi
  rounds n hn := by
    have hextends : Extends σ.results (Function.update σ.results s (σ.results s ++ [a])) := extends_append s a
    have hold : n < (σ.results .pollDelay).length → ∃ c, counters provider (Function.update σ.results s _) n = some c :=
      fun hlt => (h.rounds n hlt).imp fun _ => counters_extends hextends
    cases h.placed i hrunning with
    | loop hpassed hfetch hmark hnotify =>
      cases hdeed
      -- The invocation came through all rounds up to the new one.
      dsimp only at hn hnew
      rw [Function.update_self, List.length_append, List.length_singleton] at hn
      have hle := List.getElem?_eq_none_iff.mp hnew
      obtain ⟨c, hc⟩ := counters_of_le hpassed.counters (Nat.le_trans (Nat.le_of_lt_succ hn) hle)
      exact ⟨c, counters_extends hextends hc⟩
    | start => cases hdeed
    | check => cases hdeed
    | done => cases hdeed
    | fetch => cases hdeed; exact hold hn
    | timeout => cases hdeed; exact hold hn
    | query => cases hdeed; exact hold hn
    | update => cases hdeed; exact hold hn
    | notify => cases hdeed; exact hold hn
  leaves := by
    refine List.pairwise_append.mpr ⟨h.leaves, List.pairwise_singleton _ _, fun e he e' he' hdelay hlate => ?_⟩
    rw [List.mem_singleton.mp he']
    rcases h.frontier hrunning hdeed hnew with hfetch | hmark | ⟨k, htimely, hk⟩
    · exact .inl hfetch
    · exact .inr hmark
    · exact absurd hlate (Nat.not_lt_of_le (htimely.history h.recorded hk he hdelay))
  counts s' := by
    by_cases hs : s' = s
    · subst hs
      dsimp only
      rw [Function.update_self, List.length_append]
      exact h.bound hrunning hdeed hnew
    · dsimp only
      rw [Function.update_of_ne hs]
      exact h.counts s'

theorem Sound.step (h : Sound provider t₀ σ) (hheld : NeverHeld σ.results) (hstep : (durablePoller provider).Step σ σ')
    (hlasts : LastsWhenLate provider t₀ σ σ') : Sound provider t₀ σ' := by
  have hrecorded := hstep.recorded h.recorded
  cases hstep with
  | invoke hidle hclock => exact h.goes_on hrecorded .start
  | @now i next t hrunning hdeed hclock =>
    exact h.goes_on hrecorded ((h.placed i hrunning).now hdeed fun started intent b => hlasts i started intent b hrunning)
  | @replay i s next a hrunning hdeed hresult =>
    exact h.goes_on hrecorded ((h.placed i hrunning).replay hheld hdeed hresult)
  | @execute i s next a t hrunning hdeed hresult hclock => exact h.execute hrunning hdeed hresult a hclock

theorem NeverHeld.of_step (h : NeverHeld σ'.results) (hstep : (durablePoller provider).Step σ σ') : NeverHeld σ.results := by
  cases hstep with
  | invoke hidle hclock => exact h
  | now hrunning hdeed hclock => exact h
  | replay hrunning hdeed hresult => exact h
  | @execute i s next a t hrunning hdeed hresult hclock =>
    intro intent hintent
    refine h intent ?_
    obtain ⟨n, hn⟩ := List.mem_iff_getElem?.mp hintent
    exact List.mem_of_getElem? (extends_append s a .fetchIntent n _ hn)

/-- The poller ends in time when late checks are made by invocations that have run for the maximum duration. -/
theorem poller_ends (h : (durablePoller provider).Runs (LastsWhenLate provider t₀) ((durablePoller provider).first t₀) σ)
    (hheld : NeverHeld σ.results) : EndsInTime provider t₀ σ := by
  have hsound : Sound provider t₀ σ := by
    induction h with
    | refl => exact sound_first
    | tail _ hstep ih => exact (ih (hheld.of_step hstep.1)).step (hheld.of_step hstep.1) hstep.1 hstep.2
  refine ⟨hsound.leaves, hsound.counts .queryProvider, ?_⟩
  rw [h.length_history]
  have hsum := Finset.sum_le_sum fun s (_ : s ∈ Finset.univ) => hsound.counts s
  refine hsum.trans_eq ?_
  change stepBound provider .pollDelay + (stepBound provider .fetchIntent + (stepBound provider .markTimeoutFailed +
    (stepBound provider .queryProvider + (stepBound provider .updateStatus + (stepBound provider .sendNotification + 0))))) = _
  dsimp only [stepBound]
  omega

/-! ## An intent that stays open -/

/-- An invocation takes no time. -/
def Swift (σ σ' : PollRun) : Prop := σ.running.isSome → σ'.running.isSome → σ'.clock = σ.clock

/-- The results when the intent stays as it is. -/
def sameResults (intent : PaymentIntent) (delays fetches queries : Nat) : PollResults
  | .pollDelay => List.replicate delays ()
  | .fetchIntent => List.replicate fetches (some intent)
  | .queryProvider => List.replicate queries (some intent.status)
  | .markTimeoutFailed | .updateStatus | .sendNotification => []

def sameSeen (delays fetches queries : Nat) : PollStep → Nat
  | .pollDelay => delays
  | .fetchIntent => fetches
  | .queryProvider => queries
  | .markTimeoutFailed | .updateStatus | .sendNotification => 0

/-- The poller goes on with the intent. -/
structure StaysOpen (provider : Provider) (intent : PaymentIntent) : Prop where
  notTerminal : intent.status ∉ PaymentIntentStatus.TERMINAL
  notHeld : intent.isPreauth = false
  queried : ¬ waits provider intent

section StaysOpen

variable {intent : PaymentIntent} {history : List (PollStep × Nat)} {clock p f q : Nat}

/-- A state of a run in which the intent stays open. -/
def same (intent : PaymentIntent) (history : List (PollStep × Nat)) (clock p f q : Nat)
    (running : Option (Invocation PollStep PollPoint)) : PollRun :=
  { clock, results := sameResults intent p f q, history, running }

/-- One invocation, which takes no time, comes from a point to another. -/
def Comes (provider : Provider) (intent : PaymentIntent) (history : List (PollStep × Nat)) (clock p f q : Nat)
    (i j : Invocation PollStep PollPoint) : Prop :=
  (durablePoller provider).Runs Swift (same intent history clock p f q (some i)) (same intent history clock p f q (some j))

theorem sameSeen_update (p f q : Nat) :
    Function.update (sameSeen p f q) .pollDelay (p + 1) = sameSeen (p + 1) f q ∧
      Function.update (sameSeen p f q) .fetchIntent (f + 1) = sameSeen p (f + 1) q ∧
      Function.update (sameSeen p f q) .queryProvider (q + 1) = sameSeen p f (q + 1) := by
  refine ⟨?_, ?_, ?_⟩ <;> funext s <;> cases s <;> rfl

theorem comes_now {point : PollPoint} {seen : PollStep → Nat} {next : Nat → PollPoint}
    (hdeed : PollPoint.deed provider point = .now next) :
    Comes provider intent history clock p f q ⟨point, seen⟩ ⟨next clock, seen⟩ :=
  .single ⟨@Transaction.Durable.Step.now _ _ _ _ (durablePoller provider) (same intent history clock p f q (some ⟨point, seen⟩))
    ⟨point, seen⟩ next clock rfl hdeed (Nat.le_refl _), fun _ _ => rfl⟩

theorem comes_replay (point : PollPoint) {seen : PollStep → Nat} {s : PollStep} (next : s.Result → PollPoint) {a : s.Result}
    (hdeed : PollPoint.deed provider point = .step s next) (ha : (sameResults intent p f q s)[seen s]? = some a) :
    Comes provider intent history clock p f q ⟨point, seen⟩ ⟨next a, Function.update seen s (seen s + 1)⟩ :=
  .single ⟨@Transaction.Durable.Step.replay _ _ _ _ (durablePoller provider)
    (same intent history clock p f q (some ⟨point, seen⟩)) ⟨point, seen⟩ s next a rfl hdeed ha, fun _ _ => rfl⟩

/-- The check lets the intent pass: the invocation has just begun. -/
theorem comes_checked (h : StaysOpen provider intent) {seen : PollStep → Nat} :
    Comes provider intent history clock p f q ⟨fetched clock (some intent), seen⟩ ⟨.query clock intent, seen⟩ := by
  have hcheck : fetched clock (some intent) = .check clock intent := by
    rw [fetched, if_neg h.notTerminal, h.notHeld, if_neg Bool.false_ne_true]
  have hquery : checked provider clock intent clock = .query clock intent := by
    have hpos : 0 < maxDurationFor provider := by cases provider <;> decide
    rw [checked, if_neg (by omega), if_neg h.queried]
  rw [hcheck, ← hquery]
  exact comes_now rfl

theorem comes_fetch {k : Nat} (hp : k < p) :
    Comes provider intent history clock p f q ⟨.loop clock, sameSeen k k k⟩ ⟨.fetch clock, sameSeen (k + 1) k k⟩ := by
  have ha : (sameResults intent p f q .pollDelay)[sameSeen k k k .pollDelay]? = some () := List.getElem?_replicate_of_lt hp
  rw [← (sameSeen_update k k k).1]
  exact comes_replay (.loop clock) (fun _ => .fetch clock) rfl ha

theorem comes_query (h : StaysOpen provider intent) {k : Nat} (hp : k < p) (hf : k < f) :
    Comes provider intent history clock p f q ⟨.loop clock, sameSeen k k k⟩
      ⟨.query clock intent, sameSeen (k + 1) (k + 1) k⟩ := by
  have ha : (sameResults intent p f q .fetchIntent)[sameSeen (k + 1) k k .fetchIntent]? = some (some intent) :=
    List.getElem?_replicate_of_lt hf
  refine (comes_fetch hp).trans (.trans ?_ (comes_checked h))
  rw [← (sameSeen_update (k + 1) k k).2.1]
  exact comes_replay (.fetch clock) (fetched clock) rfl ha

/-- A recorded round. -/
theorem comes_round (h : StaysOpen provider intent) {k : Nat} (hp : k < p) (hf : k < f) (hq : k < q) :
    Comes provider intent history clock p f q ⟨.loop clock, sameSeen k k k⟩
      ⟨.loop clock, sameSeen (k + 1) (k + 1) (k + 1)⟩ := by
  have ha : (sameResults intent p f q .queryProvider)[sameSeen (k + 1) (k + 1) k .queryProvider]? =
      some (some intent.status) := List.getElem?_replicate_of_lt hq
  refine (comes_query h hp hf).trans ?_
  have hloop : queried clock intent (some intent.status) = .loop clock := if_pos rfl
  rw [← (sameSeen_update (k + 1) (k + 1) k).2.2, ← hloop]
  exact comes_replay (.query clock intent) (queried clock intent) rfl ha

/-- An invocation comes through the recorded rounds. -/
theorem comes_loop (h : StaysOpen provider intent) {n : Nat} (hp : n ≤ p) (hf : n ≤ f) (hq : n ≤ q) :
    Comes provider intent history clock p f q (durablePoller provider).fresh ⟨.loop clock, sameSeen n n n⟩ := by
  induction n with
  | zero =>
    have hseen : (fun _ => 0 : PollStep → Nat) = sameSeen 0 0 0 := by
      funext s
      cases s <;> rfl
    rw [← hseen]
    exact comes_now rfl
  | succ n ih =>
    exact (ih (Nat.le_of_succ_le hp) (Nat.le_of_succ_le hf) (Nat.le_of_succ_le hq)).trans (comes_round h hp hf hq)

/-- An invocation ends with a new step. -/
theorem comes_new (history : List (PollStep × Nat)) (clock : Nat) {j : Invocation PollStep PollPoint} {s : PollStep}
    {next : s.Result → PollPoint} (a : s.Result)
    (hcomes : Comes provider intent history clock p f q (durablePoller provider).fresh j)
    (hdeed : PollPoint.deed provider j.point = .step s next) (hnew : (sameResults intent p f q s)[j.seen s]? = none)
    {p' f' q' : Nat}
    (hresults : Function.update (sameResults intent p f q) s (sameResults intent p f q s ++ [a]) = sameResults intent p' f' q') :
    (durablePoller provider).Runs Swift (same intent history clock p f q (some (durablePoller provider).fresh))
      (same intent (history ++ [(s, clock)]) (clock + (durablePoller provider).lasts s) p' f' q'
        (some (durablePoller provider).fresh)) := by
  refine hcomes.trans (.tail (.single ⟨@Transaction.Durable.Step.execute _ _ _ _ (durablePoller provider)
    (same intent history clock p f q (some j)) j s next a (clock + (durablePoller provider).lasts s) rfl hdeed hnew
    (Nat.le_refl _), fun _ h => nomatch h⟩) ⟨?_, fun h => nomatch h⟩)
  rw [same, same, ← hresults]
  exact .invoke rfl (Nat.le_refl _)

theorem sameResults_update (intent : PaymentIntent) (p f q : Nat) :
    Function.update (sameResults intent p f q) .pollDelay (sameResults intent p f q .pollDelay ++ [()]) =
        sameResults intent (p + 1) f q ∧
      Function.update (sameResults intent p f q) .fetchIntent (sameResults intent p f q .fetchIntent ++ [some intent]) =
        sameResults intent p (f + 1) q ∧
      Function.update (sameResults intent p f q) .queryProvider
          (sameResults intent p f q .queryProvider ++ [some intent.status]) = sameResults intent p f (q + 1) := by
  refine ⟨?_, ?_, ?_⟩ <;> funext s <;> cases s <;> first | rfl | exact List.replicate_succ'.symm

theorem replicate_new {α : Type} (n : Nat) (a : α) : (List.replicate n a)[n]? = none :=
  List.getElem?_eq_none (Nat.le_of_eq List.length_replicate)

/-- A round more takes three invocations. -/
theorem same_succ (h : StaysOpen provider intent) (history : List (PollStep × Nat)) (clock n : Nat) :
    ∃ history', (durablePoller provider).Runs Swift (same intent history clock n n n (some (durablePoller provider).fresh))
      (same intent history' (clock + POLL_INTERVAL_MS) (n + 1) (n + 1) (n + 1) (some (durablePoller provider).fresh)) := by
  have hle := Nat.le_refl n
  obtain ⟨hdelays, -, -⟩ := sameResults_update intent n n n
  obtain ⟨-, hfetches, -⟩ := sameResults_update intent (n + 1) n n
  obtain ⟨-, -, hqueries⟩ := sameResults_update intent (n + 1) (n + 1) n
  have hdelay := comes_new history clock () (comes_loop h hle hle hle) rfl (replicate_new n ()) hdelays
  have hfetch := comes_new (history ++ [(.pollDelay, clock)]) (clock + POLL_INTERVAL_MS) (some intent)
    ((comes_loop h (Nat.le_succ n) hle hle).trans (comes_fetch (Nat.lt_succ_self n))) rfl (replicate_new n (some intent))
    hfetches
  have hquery := comes_new (history ++ [(.pollDelay, clock)] ++ [(.fetchIntent, clock + POLL_INTERVAL_MS)])
    (clock + POLL_INTERVAL_MS) (some intent.status)
    ((comes_loop h (Nat.le_succ n) (Nat.le_succ n) hle).trans (comes_query h (Nat.lt_succ_self n) (Nat.lt_succ_self n))) rfl
    (replicate_new n (some intent.status)) hqueries
  exact ⟨_, hdelay.trans (hfetch.trans hquery)⟩

/-- While the intent stays open the poller goes on, at any age. -/
theorem poller_goes_on (h : StaysOpen provider intent) (t₀ n : Nat) :
    ∃ σ, (durablePoller provider).Runs Swift ((durablePoller provider).first t₀) σ ∧
      σ.results = sameResults intent n n n ∧ σ.clock = t₀ + POLL_INTERVAL_MS * n := by
  have hruns : ∃ history, (durablePoller provider).Runs Swift ((durablePoller provider).first t₀)
      (same intent history (t₀ + POLL_INTERVAL_MS * n) n n n (some (durablePoller provider).fresh)) := by
    induction n with
    | zero =>
      have hnone : (fun _ => [] : PollResults) = sameResults intent 0 0 0 := by
        funext s
        cases s <;> rfl
      refine ⟨[], ?_⟩
      rw [same, ← hnone]
      exact .refl
    | succ n ih =>
      obtain ⟨history, hruns⟩ := ih
      obtain ⟨history', hround⟩ := same_succ h history (t₀ + POLL_INTERVAL_MS * n) n
      rw [Nat.mul_succ, ← Nat.add_assoc]
      exact ⟨history', hruns.trans hround⟩
  obtain ⟨history, hruns⟩ := hruns
  exact ⟨_, hruns, rfl, rfl⟩

end StaysOpen

/-- An intent that the provider works on. -/
def pendingIntent : PaymentIntent :=
  { id := 1, tenantId := 1, paymentLinkId := none, status := .processing, provider := .vps, providerRef := some "v"
    correlationId := "c", metadata := none, riskVerdict := none, createdAt := 0 }

theorem open_staysOpen : StaysOpen .vps pendingIntent := ⟨by decide, rfl, fun hwaits => by cases hwaits.1⟩

theorem neverHeld_open {n : Nat} (h : σ.results = sameResults pendingIntent n n n) : NeverHeld σ.results := by
  intro intent hintent
  rw [h] at hintent
  obtain rfl := Option.some.inj (List.eq_of_mem_replicate hintent)
  rfl

/-- The intent stays in process. -/
def pendingAnswers : (s : PollStep) → s.Result
  | .fetchIntent => some pendingIntent
  | .queryProvider => some .processing
  | .pollDelay | .markTimeoutFailed | .updateStatus | .sendNotification => ()

/-- The check of a late round, which the second one is. -/
def heldCheck (σ σ' : PollRun) : Bool :=
  match σ.running with
  | some ⟨.check started _, seen⟩ =>
      ((σ.began .pollDelay)[seen .pollDelay - 1]?).all fun b =>
        b ≤ maxDurationFor .vps || started + maxDurationFor .vps ≤ σ'.clock
  | _ => true

theorem lastsWhenLate_of_heldCheck {σ σ' : PollRun} (h : heldCheck σ σ' = true) : LastsWhenLate .vps 0 σ σ' := by
  rintro ⟨point, seen⟩ started intent b hrunning rfl hb hlate
  rw [heldCheck, hrunning] at h
  dsimp only at h hb
  rw [hb, Option.all_some] at h
  rcases Bool.or_eq_true_iff.mp h with hearly | hheld
  · have := of_decide_eq_true hearly
    omega
  · exact of_decide_eq_true hheld

def lateHistory : List (PollStep × Nat) :=
  [(.pollDelay, 0), (.fetchIntent, 901000), (.queryProvider, 901000), (.pollDelay, 901000), (.fetchIntent, 931000),
    (.markTimeoutFailed, 1831000)]

/-- The first delay lasts longer than 15 minutes, so the second round begins late. The invocations that check it are held
for 15 minutes: the first of them marks the intent and the last one leaves the loop. -/
theorem poller_ends_rounds : ∃ σ : PollRun,
    (durablePoller .vps).Runs (LastsWhenLate .vps 0) ((durablePoller .vps).first 0) σ ∧ σ.history = lateHistory ∧
      (∃ i, σ.running = some i ∧ i.point.isDone) ∧ EndsInTime .vps 0 σ := by
  obtain ⟨σ, hruns, hend⟩ := Transaction.Durable.Runs.exists_of_play (durablePoller .vps) heldCheck
    pendingAnswers ((durablePoller .vps).first 0)
    ([0] ++ List.replicate 16 901000 ++ List.replicate 17 931000 ++ List.replicate 11 1831000 ++ List.replicate 2 2731000)
    (fun σ => σ.history = lateHistory && (σ.results .fetchIntent).all (·.all (·.isPreauth = false)) &&
      σ.running.any (·.point.isDone))
    (fun _ _ => lastsWhenLate_of_heldCheck) (by decide +kernel)
  obtain ⟨hmarked, hdone⟩ := Bool.and_eq_true_iff.mp hend
  obtain ⟨hhistory, hheld⟩ := Bool.and_eq_true_iff.mp hmarked
  refine ⟨σ, hruns, of_decide_eq_true hhistory, (Option.any_eq_true _ _).mp hdone, poller_ends hruns fun intent hintent => ?_⟩
  exact of_decide_eq_true (List.all_eq_true.mp hheld _ hintent)

/-- An intent that stays in process for 16 minutes is queried 32 times. -/
theorem not_poller_ends : ¬ ∀ (provider : Provider) (t₀ : Nat) (σ : PollRun),
    (durablePoller provider).Runs (fun _ _ => True) ((durablePoller provider).first t₀) σ → NeverHeld σ.results →
    EndsInTime provider t₀ σ := by
  intro h
  obtain ⟨σ, hruns, hresults, -⟩ := poller_goes_on open_staysOpen 0 32
  have hqueries := (h .vps 0 σ (hruns.weaken fun _ _ _ => trivial) (neverHeld_open hresults)).queries
  rw [hresults] at hqueries
  exact absurd hqueries (by decide)

end CorpoPay.Settlement.Poller
