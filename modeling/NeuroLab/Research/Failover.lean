import NeuroLab.Common.Shell
import NeuroLab.Python.JsonRoundTrip
import NeuroLab.Python.Text

/-!
# The two lanes of GigaChat

The shell function that calls a runner on the primary lane and, if that fails for a while only, on
the freemium lane. It takes the status of a failed call from `$?` behind the `if` that made the
call, where it is zero: a call that fails for any other reason is reported as a success.
-/

namespace NeuroLab.Research.Failover

open Python Common Shell

/-! ## Lanes, programs and the clock -/

/-- The lanes. -/
inductive Lane
  | primary
  | freemium
deriving DecidableEq

/-- The word of a lane. -/
def Lane.word : Lane → Str
  | primary => lit "primary"
  | freemium => lit "freemium"

/-- A program that ran: its exit status and its output. -/
structure Ran where
  status : ℕ
  output : Str

/-- What the function finds: the pause file, the clock at its two readings, the length of a pause, and what
loading the model, loading a credential and the runner do. -/
structure Surroundings where
  pauseFile : Option Str
  now : ℤ
  later : ℤ
  pauseSeconds : ℤ := 900
  model : Ran
  credential : Lane → Ran
  runner : Lane → Str → Str → Ran

/-- The variables of the function, the pause file, the calls made and what was printed. -/
structure State where
  pauseFile : Option Str
  model : Str := []
  credential : Str := []
  captured : Str := []
  status : ℕ := 0
  calls : List Lane := []
  output : Str := []
  messages : List Str := []

/-- `$(...)`: the output without null bytes and without its newlines at the end. -/
def substituted (output : Str) : Str := ((output.filter (· ≠ 0)).reverse.dropWhile (· = 0x0A)).reverse

/-- `echo ... >&2`. -/
def complain (message : Str) : Command State := assign fun s => { s with messages := s.messages ++ [message] }

/-! ## The pause -/

/-- A number in 64 bits. -/
def wrapped (n : ℤ) : ℤ := n.bmod (2 ^ 64)

/-- The number that a word of digits is in an arithmetic expression: octal behind a zero. -/
def shellNumber (digits : Str) : Option ℤ :=
  match digits with
  | 0x30 :: octal =>
    if octal.all fun c => decide (c < 0x38) then some (wrapped (Nat.ofDigits 8 (octal.map (· - 0x30)).reverse)) else none
  | digits => some (wrapped (digitsValue digits))

/-- `head -n 1` of the pause file. -/
def firstLine (content : Str) : Str := substituted (content.takeWhile (· ≠ 0x0A))

/-- The last test of `_gigachat_is_paused`; a word that is no number fails it. -/
def isBefore (now : ℤ) (until_ : Str) : Bool :=
  !until_.isEmpty && until_.all isDigit && (shellNumber until_).any fun n => decide (now < n)

/-- `_gigachat_is_paused`. -/
def gigachatIsPaused (env : Surroundings) : Command State :=
  function (block
    [orElse (test fun s => s.pauseFile.isSome) (leave fun _ _ => 1),
      test fun s => isBefore env.now (firstLine (s.pauseFile.getD []))])

/-- The content of the pause file that is written for a time. -/
def pauseLine (until_ : ℤ) : Str := decimalInt until_ ++ [0x0A]

/-- `_gigachat_record_pause`. -/
def gigachatRecordPause (env : Surroundings) : Command State :=
  assign fun s => { s with pauseFile := some (pauseLine (wrapped (env.later + env.pauseSeconds))) }

/-! ## The lanes -/

/-- Whether a line has 429 as a number of its own, behind a digit or not. -/
def hasRateLimit : Bool → Str → Bool
  | _, [] => false
  | digit, c :: s =>
    (!digit && startsWith (lit "429") (c :: s) && !((s.drop 2).head?.any isDigit)) || hasRateLimit (isDigit c) s

/-- `_gigachat_is_transient_failure`. -/
def isTransientFailure (captured : Str) : Bool :=
  (captured.splitOnP (· = 0x0A)).any fun line =>
    hasRateLimit false line ||
      [lit "RateLimitError", lit "ConnectTimeout", lit "TimeoutError", lit "temporarily unavailable"].any fun word =>
        line.tails.any (startsWith word)

/-- The condition of the `if` around a call: the runner under `$(...)`. -/
def callRunner (env : Surroundings) (lane : Lane) : Command State :=
  program fun s =>
    let ran := env.runner lane s.credential s.model
    ({ s with captured := substituted ran.output, calls := s.calls ++ [lane] }, ran.status)

/-- `unset credential`. -/
def unsetCredential : Command State := assign fun s => { s with credential := [] }

/-- The credential of a lane, or the return without one. -/
def loadCredential (env : Surroundings) (lane : Lane) : Command State :=
  orElse
    (program fun s => ({ s with credential := substituted (env.credential lane).output }, (env.credential lane).status))
    (block [complain (lit "Configured GigaChat " ++ lane.word ++ lit " lane is unavailable."), leave fun _ _ => 1])

/-- The round of the loop for a lane. -/
def tryLane (env : Surroundings) (lane : Lane) : Command State :=
  block
    [loadCredential env lane,
      ifThen (callRunner env lane)
        (block
          [assign fun s => { s with output := s.output ++ s.captured ++ [0x0A] }, unsetCredential, leave fun _ _ => 0]),
      saveStatus fun status s => { s with status },
      unsetCredential,
      ifThen (negated (test fun s => isTransientFailure s.captured))
        (block
          [complain (lit "GigaChat " ++ lane.word ++ lit " lane failed without an eligible failover."),
            leave fun s _ => s.status]),
      ifThen (test fun _ => lane = .primary)
        (block [complain (lit "GigaChat primary lane is rate-limited; switching once to freemium."), proceed]),
      gigachatRecordPause env,
      complain (lit "Both GigaChat lanes are temporarily limited; research calls are paused for 15 minutes."),
      leave fun _ _ => 75]

/-- `gigachat_run_with_failover`. -/
def gigachatRunWithFailover (env : Surroundings) : Command State :=
  function (block
    [ifThen (gigachatIsPaused env)
        (block
          [complain (lit "GigaChat research lanes are paused after rate limiting; no provider call was made."),
            leave fun _ _ => 75]),
      orElse (program fun s => ({ s with model := substituted env.model.output }, env.model.status))
        (leave fun _ status => status),
      forEach [.primary, .freemium] (tryLane env)])

/-- What a call of the function leaves. -/
def result (env : Surroundings) : Left State := gigachatRunWithFailover env { pauseFile := env.pauseFile } 0

/-! ## A call of a lane -/

namespace Surroundings

variable (env : Surroundings)

/-- The call of a lane, with the credential and the model that were loaded. -/
def call (lane : Lane) : Ran := env.runner lane (substituted (env.credential lane).output) (substituted env.model.output)

/-- What `$(...)` keeps of the call's output. -/
def captured (lane : Lane) : Str := substituted (env.call lane).output

/-- The call fails, and its output matches the pattern. -/
def FailsTransiently (lane : Lane) : Prop := (env.call lane).status ≠ 0 ∧ isTransientFailure (env.captured lane) = true

/-- The call fails, and its output does not match. -/
def FailsOutright (lane : Lane) : Prop := (env.call lane).status ≠ 0 ∧ isTransientFailure (env.captured lane) = false

/-- The pause file names a later time. -/
def Paused : Prop := ∃ content, env.pauseFile = some content ∧ isBefore env.now (firstLine content) = true

/-- The model and the credentials can be loaded. -/
structure Loadable : Prop where
  model : env.model.status = 0
  credential : ∀ lane, (env.credential lane).status = 0

/-- The state behind the call of a lane. -/
def called (lane : Lane) (s : State) : State :=
  { s with credential := substituted (env.credential lane).output, captured := env.captured lane, calls := s.calls ++ [lane] }

end Surroundings

variable {env : Surroundings} {lane : Lane} {s : State} {status : ℕ}

/-- The state in which a failed call is looked at: the status saved is that of the `if` around the call. -/
def Surroundings.failed (env : Surroundings) (lane : Lane) (s : State) : State :=
  { env.called lane s with status := 0, credential := [] }

theorem loadCredential_eq (loadable : env.Loadable) :
    loadCredential env lane s status = ⟨.next, { s with credential := substituted (env.credential lane).output }, 0⟩ := by
  apply orElse_of_zero
  rw [program, loadable.credential lane]

theorem callRunner_eq (hmodel : s.model = substituted env.model.output) :
    callRunner env lane { s with credential := substituted (env.credential lane).output } status =
      ⟨.next, env.called lane s, (env.call lane).status⟩ := by
  simp only [callRunner, program, Surroundings.called, Surroundings.captured, Surroundings.call, hmodel]

/-- A call that exits with zero is printed, and the function returns zero. -/
theorem tryLane_of_zero (loadable : env.Loadable) (hmodel : s.model = substituted env.model.output)
    (hcall : (env.call lane).status = 0) :
    tryLane env lane s status =
      ⟨.returned, { env.called lane s with credential := [], output := s.output ++ env.captured lane ++ [0x0A] }, 0⟩ := by
  unfold tryLane
  have hne : Flow.returned ≠ .next := nofun
  rw [block_of_next (loadCredential_eq loadable)]
  refine block_of_left ?_ hne
  rw [ifThen_of_zero (hcall ▸ callRunner_eq hmodel)]
  rfl

/-- Behind a call that fails, its status is gone. -/
theorem tryLane_of_failed (loadable : env.Loadable) (hmodel : s.model = substituted env.model.output)
    (hcall : (env.call lane).status ≠ 0) :
    tryLane env lane s status =
      block
        [ifThen (negated (test fun s => isTransientFailure s.captured))
            (block
              [complain (lit "GigaChat " ++ lane.word ++ lit " lane failed without an eligible failover."),
                leave fun s _ => s.status]),
          ifThen (test fun _ => lane = .primary)
            (block [complain (lit "GigaChat primary lane is rate-limited; switching once to freemium."), proceed]),
          gigachatRecordPause env,
          complain (lit "Both GigaChat lanes are temporarily limited; research calls are paused for 15 minutes."),
          leave fun _ _ => 75] (env.failed lane s) 0 := by
  unfold tryLane
  rw [block_of_next (loadCredential_eq loadable), block_of_next (ifThen_of_ne_zero (callRunner_eq hmodel) hcall)]
  rfl

/-- A call that fails outright makes the function return zero. -/
theorem tryLane_of_outright (loadable : env.Loadable) (hmodel : s.model = substituted env.model.output)
    (hcall : env.FailsOutright lane) : ∃ s', tryLane env lane s status = ⟨.returned, s', 0⟩ ∧
      s'.calls = s.calls ++ [lane] ∧ s'.output = s.output ∧ s'.pauseFile = s.pauseFile := by
  have hnegated : negated (test fun s => isTransientFailure s.captured) (env.failed lane s) 0 =
      ⟨.next, env.failed lane s, 0⟩ := by
    have htest : isTransientFailure (env.failed lane s).captured = false := hcall.2
    rw [negated, test, htest]
    rfl
  have hne : Flow.returned ≠ .next := by rintro ⟨⟩
  rw [tryLane_of_failed loadable hmodel hcall.1]
  exact ⟨_, block_of_left (ifThen_of_zero hnegated) hne, rfl, rfl, rfl⟩

/-- A call that fails transiently leads on. -/
theorem tryLane_of_transient (loadable : env.Loadable) (hmodel : s.model = substituted env.model.output)
    (hcall : env.FailsTransiently lane) :
    tryLane env lane s status =
      block
        [ifThen (test fun _ => lane = .primary)
            (block [complain (lit "GigaChat primary lane is rate-limited; switching once to freemium."), proceed]),
          gigachatRecordPause env,
          complain (lit "Both GigaChat lanes are temporarily limited; research calls are paused for 15 minutes."),
          leave fun _ _ => 75] (env.failed lane s) 0 := by
  have hnegated : negated (test fun s => isTransientFailure s.captured) (env.failed lane s) 0 =
      ⟨.next, env.failed lane s, 1⟩ := by
    have htest : isTransientFailure (env.failed lane s).captured = true := hcall.2
    rw [negated, test, htest]
    rfl
  rw [tryLane_of_failed loadable hmodel hcall.1, block_of_next (ifThen_of_ne_zero hnegated Nat.one_ne_zero)]

theorem tryLane_primary_of_transient (loadable : env.Loadable) (hmodel : s.model = substituted env.model.output)
    (hcall : env.FailsTransiently .primary) : ∃ s', tryLane env .primary s status = ⟨.continued, s', 0⟩ ∧
      s'.model = s.model ∧ s'.calls = s.calls ++ [.primary] ∧ s'.output = s.output ∧ s'.pauseFile = s.pauseFile := by
  have hne : Flow.continued ≠ .next := nofun
  rw [tryLane_of_transient loadable hmodel hcall]
  exact ⟨_, block_of_left rfl hne, rfl, rfl, rfl, rfl⟩

theorem tryLane_freemium_of_transient (loadable : env.Loadable) (hmodel : s.model = substituted env.model.output)
    (hcall : env.FailsTransiently .freemium) : ∃ s', tryLane env .freemium s status = ⟨.returned, s', 75⟩ ∧
      s'.calls = s.calls ++ [.freemium] ∧ s'.output = s.output ∧
        s'.pauseFile = some (pauseLine (wrapped (env.later + env.pauseSeconds))) := by
  rw [tryLane_of_transient loadable hmodel hcall]
  exact ⟨_, rfl, rfl, rfl, rfl⟩

/-! ## The function -/

theorem gigachatIsPaused_of_paused (hfile : s.pauseFile = env.pauseFile) (hpaused : env.Paused) :
    gigachatIsPaused env s status = ⟨.next, s, 0⟩ := by
  obtain ⟨content, hcontent, hbefore⟩ := hpaused
  have hfound : s.pauseFile = some content := hfile.trans hcontent
  simp [gigachatIsPaused, function, block, orElse, test, hfound, hbefore]

theorem gigachatIsPaused_of_not_paused (hfile : s.pauseFile = env.pauseFile) (hpaused : ¬env.Paused) :
    gigachatIsPaused env s status = ⟨.next, s, 1⟩ := by
  cases hcontent : s.pauseFile with
  | none => simp [gigachatIsPaused, function, block, orElse, test, leave, hcontent]
  | some content =>
    have hbefore : isBefore env.now (firstLine content) = false := by
      rw [← Bool.not_eq_true]
      exact fun h => hpaused ⟨content, hfile.symm.trans hcontent, h⟩
    simp [gigachatIsPaused, function, block, orElse, test, hcontent, hbefore]

/-- How a call of the function ends: the lanes it called, what it printed, the pause file and the status. -/
structure Ends (env : Surroundings) (calls : List Lane) (output : Str) (pauseFile : Option Str) (status : ℕ) : Prop where
  calls : (result env).state.calls = calls
  output : (result env).state.output = output
  pauseFile : (result env).state.pauseFile = pauseFile
  status : (result env).status = status

theorem Ends.of_result {s' : State} (h : result env = ⟨.next, s', status⟩) :
    Ends env s'.calls s'.output s'.pauseFile status := by
  constructor <;> rw [h]

theorem ends_of_paused (hpaused : env.Paused) : Ends env [] [] env.pauseFile 75 := by
  have hif : gigachatIsPaused env { pauseFile := env.pauseFile } 0 = ⟨.next, { pauseFile := env.pauseFile }, 0⟩ :=
    gigachatIsPaused_of_paused rfl hpaused
  have hresult : result env = ⟨.next, { pauseFile := env.pauseFile, messages :=
      [lit "GigaChat research lanes are paused after rate limiting; no provider call was made."] }, 75⟩ := by
    rw [result, gigachatRunWithFailover, function, block, ifThen_of_zero hif]
    rfl
  exact .of_result hresult

/-- The state in which the loop begins. -/
def Surroundings.started (env : Surroundings) : State :=
  { pauseFile := env.pauseFile, model := substituted env.model.output }

/-- Without a pause the function is its loop. -/
theorem result_of_loop (loadable : env.Loadable) (hpaused : ¬env.Paused) {s' : State}
    (hloop : forEach [.primary, .freemium] (tryLane env) env.started 0 = ⟨.returned, s', status⟩) :
    result env = ⟨.next, s', status⟩ := by
  have hif : gigachatIsPaused env { pauseFile := env.pauseFile } 0 = ⟨.next, { pauseFile := env.pauseFile }, 1⟩ :=
    gigachatIsPaused_of_not_paused rfl hpaused
  have hload : orElse (program fun s => ({ s with model := substituted env.model.output }, env.model.status))
      (leave fun _ status => status) { pauseFile := env.pauseFile } 0 = ⟨.next, env.started, 0⟩ := by
    apply orElse_of_zero
    rw [program, loadable.model]
    rfl
  rw [result, gigachatRunWithFailover, function, block_of_next (ifThen_of_ne_zero hif Nat.one_ne_zero), block_of_next hload,
    block_single, hloop]

section Unpaused

variable (loadable : env.Loadable) (hpaused : ¬env.Paused)

include loadable hpaused

theorem ends_of_primary (hcall : (env.call .primary).status = 0) :
    Ends env [.primary] (env.captured .primary ++ [0x0A]) env.pauseFile 0 :=
  .of_result (result_of_loop loadable hpaused (forEach_of_returned (tryLane_of_zero loadable rfl hcall)))

theorem ends_of_primary_outright (hcall : env.FailsOutright .primary) : Ends env [.primary] [] env.pauseFile 0 := by
  obtain ⟨s', htry, hcalls, houtput, hfile⟩ := tryLane_of_outright loadable (s := env.started) rfl hcall
  have hends := Ends.of_result (result_of_loop loadable hpaused (forEach_of_returned htry))
  rwa [hcalls, houtput, hfile] at hends

/-- Behind a transient failure of the primary lane the function is the round of the other lane. -/
theorem result_of_second (hprimary : env.FailsTransiently .primary) :
    ∃ s', s'.model = substituted env.model.output ∧ s'.calls = [.primary] ∧ s'.output = [] ∧
      s'.pauseFile = env.pauseFile ∧
      ∀ s'' status, tryLane env .freemium s' 0 = ⟨.returned, s'', status⟩ → result env = ⟨.next, s'', status⟩ := by
  obtain ⟨s', htry, hmodel, hcalls, houtput, hfile⟩ :=
    tryLane_primary_of_transient loadable (s := env.started) rfl hprimary
  have hne : Flow.continued ≠ .returned := nofun
  refine ⟨s', hmodel, hcalls, houtput, hfile, fun s'' status hsecond => result_of_loop loadable hpaused ?_⟩
  rw [forEach_of_left htry hne, forEach_of_returned hsecond]

theorem ends_of_freemium (hprimary : env.FailsTransiently .primary) (hcall : (env.call .freemium).status = 0) :
    Ends env [.primary, .freemium] (env.captured .freemium ++ [0x0A]) env.pauseFile 0 := by
  obtain ⟨s', hmodel, hcalls, houtput, hfile, hresult⟩ := result_of_second loadable hpaused hprimary
  have hends := Ends.of_result (hresult _ _ (tryLane_of_zero loadable hmodel hcall))
  simpa only [Surroundings.called, hcalls, houtput, hfile, List.nil_append, List.singleton_append] using hends

theorem ends_of_freemium_outright (hprimary : env.FailsTransiently .primary) (hcall : env.FailsOutright .freemium) :
    Ends env [.primary, .freemium] [] env.pauseFile 0 := by
  obtain ⟨s', hmodel, hcalls, houtput, hfile, hresult⟩ := result_of_second loadable hpaused hprimary
  obtain ⟨s'', htry, hcalls', houtput', hfile'⟩ := tryLane_of_outright loadable hmodel hcall
  have hends := Ends.of_result (hresult _ _ htry)
  rwa [hcalls', houtput', hfile', hcalls, houtput, hfile] at hends

theorem ends_of_limited (hprimary : env.FailsTransiently .primary) (hcall : env.FailsTransiently .freemium) :
    Ends env [.primary, .freemium] [] (some (pauseLine (wrapped (env.later + env.pauseSeconds)))) 75 := by
  obtain ⟨s', hmodel, hcalls, houtput, -, hresult⟩ := result_of_second loadable hpaused hprimary
  obtain ⟨s'', htry, hcalls', houtput', hfile'⟩ := tryLane_freemium_of_transient loadable hmodel hcall
  have hends := Ends.of_result (hresult _ _ htry)
  rwa [hcalls', houtput', hfile', hcalls, houtput] at hends

end Unpaused

/-! ## The pause that was recorded -/

theorem substituted_of_digits {digits : Str} (h : ∀ c ∈ digits, isDigit c = true) : substituted digits = digits := by
  have hnul : digits.filter (· ≠ 0) = digits := by
    refine List.filter_eq_self.mpr fun c hc => decide_eq_true ?_
    rintro rfl
    exact absurd (h 0 hc) (by decide)
  have hend : digits.reverse.dropWhile (· = 0x0A) = digits.reverse := by
    refine dropWhile_of_forall fun c hc => ?_
    rw [decide_eq_false_iff_not]
    rintro rfl
    exact absurd (h 0x0A (List.mem_reverse.mp hc)) (by decide)
  rw [substituted, hnul, hend, List.reverse_reverse]

theorem firstLine_pauseLine (until_ : ℕ) : firstLine (pauseLine until_) = decimal until_ := by
  have hdigits : ∀ c ∈ decimal until_, isDigit c = true := fun _ => isDigit_of_mem_decimal
  have hline : (decimal until_ ++ [0x0A]).takeWhile (· ≠ 0x0A) = decimal until_ := by
    rw [List.takeWhile_append_of_pos]
    · exact List.append_nil _
    · intro c hc
      rw [decide_eq_true_eq]
      rintro rfl
      exact absurd (hdigits 0x0A hc) (by decide)
  have hpause : pauseLine until_ = decimal until_ ++ [0x0A] := rfl
  rw [firstLine, hpause, hline, substituted_of_digits hdigits]

theorem shellNumber_decimal {n : ℕ} (h : n < 2 ^ 63) : shellNumber (decimal n) = some (n : ℤ) := by
  have hwrapped : wrapped n = n := by
    unfold wrapped
    exact Int.bmod_eq_of_le (by omega) (by omega)
  have hvalue := digitsValue_decimal n
  unfold shellNumber
  split
  · next octal hoctal =>
    have hnil := decimal_leading_zero hoctal
    rw [hoctal, hnil] at hvalue
    rw [hnil, ← hvalue]
    rfl
  · rw [hvalue, hwrapped]

/-- A time recorded is a pause until then. -/
theorem paused_of_recorded {until_ : ℕ} (hbound : until_ < 2 ^ 63) (hfile : env.pauseFile = some (pauseLine until_))
    (hnow : env.now < until_) : env.Paused := by
  refine ⟨_, hfile, ?_⟩
  have hdigits : (decimal until_).all isDigit = true := List.all_eq_true.mpr fun _ => isDigit_of_mem_decimal
  have hne : (decimal until_).isEmpty = false := by
    rw [List.isEmpty_eq_false_iff]
    exact decimal_ne_nil until_
  rw [isBefore, firstLine_pauseLine, hdigits, hne, shellNumber_decimal hbound]
  simpa using hnow

/-! ## What the function reports -/

/-- The function reports the truth: zero for a call that exited with zero, whose output it prints; at most two calls,
the second only behind a transient failure of the first; no call in a pause; 75 in a pause or behind two transient
failures, which start one; and the status of the call otherwise. -/
structure ReportsTruth (env : Surroundings) : Prop where
  zero_iff : (result env).status = 0 ↔ ∃ lane ∈ (result env).state.calls, (env.call lane).status = 0
  printed : ∀ lane ∈ (result env).state.calls, (env.call lane).status = 0 →
    (result env).state.output = env.captured lane ++ [0x0A]
  at_most_two : (result env).state.calls.length ≤ 2
  second : .freemium ∈ (result env).state.calls →
    (result env).state.calls = [.primary, .freemium] ∧ env.FailsTransiently .primary
  paused_silent : env.Paused → (result env).state.calls = []
  recorded_silent : ∀ until_ : ℕ, until_ < 2 ^ 63 → env.pauseFile = some (pauseLine until_) → env.now < until_ →
    (result env).state.calls = []
  limited_iff : (result env).status = 75 ↔
    env.Paused ∨ ((result env).state.calls = [.primary, .freemium] ∧ ∀ lane, env.FailsTransiently lane)
  recorded : ¬env.Paused → (∀ lane, env.FailsTransiently lane) →
    (result env).state.pauseFile = some (pauseLine (wrapped (env.later + env.pauseSeconds)))
  own_status : ∀ lane ∈ (result env).state.calls, env.FailsOutright lane → (result env).status = (env.call lane).status

/-- No lane that is called fails outright. -/
def NoOutrightFailure (env : Surroundings) : Prop :=
  env.Paused ∨ (¬env.FailsOutright .primary ∧ (env.FailsTransiently .primary → ¬env.FailsOutright .freemium))

namespace ReportsTruth

theorem of_paused (hpaused : env.Paused) : ReportsTruth env := by
  have hends := ends_of_paused hpaused
  have hcalls := hends.calls
  have hstatus := hends.status
  constructor
  case zero_iff => simp [hcalls, hstatus]
  case printed => simp [hcalls]
  case at_most_two => simp [hcalls]
  case second => simp [hcalls]
  case paused_silent => exact fun _ => hcalls
  case recorded_silent => exact fun _ _ _ _ => hcalls
  case limited_iff => exact iff_of_true hstatus (.inl hpaused)
  case recorded => exact fun hnot => absurd hpaused hnot
  case own_status => simp [hcalls]

variable (loadable : env.Loadable) (hpaused : ¬env.Paused)

include hpaused in
/-- Without a pause, a recorded time is over. -/
theorem not_recorded {until_ : ℕ} (hbound : until_ < 2 ^ 63) (hfile : env.pauseFile = some (pauseLine until_))
    (hnow : env.now < until_) : False :=
  hpaused (paused_of_recorded hbound hfile hnow)

include loadable hpaused

theorem of_primary (hcall : (env.call .primary).status = 0) : ReportsTruth env := by
  have hends := ends_of_primary loadable hpaused hcall
  have hcalls := hends.calls
  have hstatus := hends.status
  constructor
  case zero_iff => simp [hcalls, hstatus, hcall]
  case printed => simp [hcalls, hends.output]
  case at_most_two => simp [hcalls]
  case second => simp [hcalls]
  case paused_silent => exact fun h => absurd h hpaused
  case recorded_silent => exact fun _ hbound hfile hnow => (not_recorded hpaused hbound hfile hnow).elim
  case limited_iff => simp [hcalls, hstatus, hpaused]
  case recorded => exact fun _ hfails => absurd hcall (hfails .primary).1
  case own_status => simp [hcalls, Surroundings.FailsOutright, hcall]

theorem of_freemium (hprimary : env.FailsTransiently .primary) (hcall : (env.call .freemium).status = 0) :
    ReportsTruth env := by
  have hends := ends_of_freemium loadable hpaused hprimary hcall
  have hcalls := hends.calls
  have hstatus := hends.status
  constructor
  case zero_iff => simp [hcalls, hstatus, hcall]
  case printed => simp [hcalls, hends.output, hprimary.1]
  case at_most_two => simp [hcalls]
  case second => exact fun _ => ⟨hcalls, hprimary⟩
  case paused_silent => exact fun h => absurd h hpaused
  case recorded_silent => exact fun _ hbound hfile hnow => (not_recorded hpaused hbound hfile hnow).elim
  case limited_iff =>
    have hnot : ¬∀ lane, env.FailsTransiently lane := fun hfails => (hfails .freemium).1 hcall
    simp [hstatus, hpaused, hnot]
  case recorded => exact fun _ hfails => absurd hcall (hfails .freemium).1
  case own_status => simp [hcalls, Surroundings.FailsOutright, hcall, hprimary.2]

theorem of_limited (hprimary : env.FailsTransiently .primary) (hfreemium : env.FailsTransiently .freemium) :
    ReportsTruth env := by
  have hends := ends_of_limited loadable hpaused hprimary hfreemium
  have hcalls := hends.calls
  have hstatus := hends.status
  have hboth : ∀ lane, env.FailsTransiently lane := fun lane => by cases lane <;> assumption
  constructor
  case zero_iff => simp [hcalls, hstatus, hprimary.1, hfreemium.1]
  case printed => exact fun lane _ hzero => absurd hzero (hboth lane).1
  case at_most_two => simp [hcalls]
  case second => exact fun _ => ⟨hcalls, hprimary⟩
  case paused_silent => exact fun h => absurd h hpaused
  case recorded_silent => exact fun _ hbound hfile hnow => (not_recorded hpaused hbound hfile hnow).elim
  case limited_iff => exact iff_of_true hstatus (.inr ⟨hcalls, hboth⟩)
  case recorded => exact fun _ _ => hends.pauseFile
  case own_status => exact fun lane _ houtright => absurd ((hboth lane).2.symm.trans houtright.2) nofun

end ReportsTruth

/-- A status of zero without a call that exited with zero is no true report. -/
theorem not_reportsTruth {calls : List Lane} {output : Str} {pauseFile : Option Str} (hends : Ends env calls output pauseFile 0)
    (hfails : ∀ lane ∈ calls, (env.call lane).status ≠ 0) : ¬ReportsTruth env := by
  intro htruth
  obtain ⟨lane, hlane, hzero⟩ := htruth.zero_iff.mp hends.status
  rw [hends.calls] at hlane
  exact hfails lane hlane hzero

/-- A call exits with zero or fails in one of the two ways. -/
theorem call_cases (env : Surroundings) (lane : Lane) :
    (env.call lane).status = 0 ∨ env.FailsTransiently lane ∨ env.FailsOutright lane := by
  by_cases hzero : (env.call lane).status = 0
  · exact .inl hzero
  cases htransient : isTransientFailure (env.captured lane) with
  | true => exact .inr (.inl ⟨hzero, htransient⟩)
  | false => exact .inr (.inr ⟨hzero, htransient⟩)

/-- The function reports the truth if and only if no lane that it calls fails outright. -/
theorem reports_truth_iff (loadable : env.Loadable) : ReportsTruth env ↔ NoOutrightFailure env := by
  constructor
  · intro htruth
    by_cases hpaused : env.Paused
    · exact .inl hpaused
    refine .inr ⟨fun houtright => ?_, fun hprimary houtright => ?_⟩
    · have hends := ends_of_primary_outright loadable hpaused houtright
      have hfails : ∀ lane ∈ [Lane.primary], (env.call lane).status ≠ 0 := by simpa using houtright.1
      exact not_reportsTruth hends hfails htruth
    · have hends := ends_of_freemium_outright loadable hpaused hprimary houtright
      have hfails : ∀ lane ∈ [Lane.primary, .freemium], (env.call lane).status ≠ 0 := by
        simpa using ⟨hprimary.1, houtright.1⟩
      exact not_reportsTruth hends hfails htruth
  · intro h
    by_cases hpaused : env.Paused
    · exact .of_paused hpaused
    obtain ⟨hprimary, hfreemium⟩ := h.resolve_left hpaused
    obtain hzero | htransient | houtright := call_cases env .primary
    · exact .of_primary loadable hpaused hzero
    · obtain hzero | hlimited | houtright := call_cases env .freemium
      · exact .of_freemium loadable hpaused htransient hzero
      · exact .of_limited loadable hpaused htransient hlimited
      · exact absurd houtright (hfreemium htransient)
    · exact absurd houtright hprimary

/-- Surroundings without a pause file in which every lane's call ends one way. -/
def surroundings (status : ℕ) (output : Str) : Surroundings where
  pauseFile := none
  now := 1000
  later := 1001
  model := { status := 0, output := lit "GigaChat-2-Pro\n" }
  credential _ := { status := 0, output := lit "secret\n" }
  runner _ _ _ := { status, output }

theorem surroundings_loadable (status : ℕ) (output : Str) : (surroundings status output).Loadable :=
  ⟨rfl, fun _ => rfl⟩

/-- Two lanes that are limited are reported. -/
theorem reports_truth_limited : ReportsTruth (surroundings 1 (lit "HTTP 429")) := by
  apply (reports_truth_iff (surroundings_loadable 1 (lit "HTTP 429"))).mpr
  have hmatches : isTransientFailure (substituted (lit "HTTP 429")) = true := by decide
  have hnot : ∀ lane, ¬(surroundings 1 (lit "HTTP 429")).FailsOutright lane := fun _ houtright =>
    absurd (hmatches.symm.trans houtright.2) nofun
  exact .inr ⟨hnot .primary, fun _ => hnot .freemium⟩

/-- A primary lane that exits with one for another reason is reported as a success: nothing is printed, and the status
is zero. -/
theorem outright_failure_reported_as_success :
    (result (surroundings 1 (lit "boom"))).status = 0 ∧ (result (surroundings 1 (lit "boom"))).state.calls = [.primary] ∧
      ((surroundings 1 (lit "boom")).call .primary).status = 1 ∧ ¬ReportsTruth (surroundings 1 (lit "boom")) := by
  have hstatus : (result (surroundings 1 (lit "boom"))).status = 0 := by decide
  have hcalls : (result (surroundings 1 (lit "boom"))).state.calls = [.primary] := by decide
  refine ⟨hstatus, hcalls, rfl, fun htruth => ?_⟩
  obtain ⟨lane, -, hzero⟩ := htruth.zero_iff.mp hstatus
  exact absurd hzero Nat.one_ne_zero

end NeuroLab.Research.Failover
