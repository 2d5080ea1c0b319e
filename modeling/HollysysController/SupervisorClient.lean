import HollysysController.EventDecoding
import HollysysController.Python.Json

/-! # The client of the Supervisor

What the Controller makes of the bytes that the Supervisor's socket returns: the framing, the
envelope, and the result. The client reads the fields with `int` and `==`, which take more than
the integers that the Supervisor writes, and some of its exceptions are caught nowhere. -/

namespace HollysysController.Supervisor

open Python (Value Text Double PyError Decimals codePoints)
open Python.Json (JsonError loads)

/-! ## Observations -/

inductive WorkerState where
  | running | exited | terminated | unavailable
  deriving DecidableEq, Repr

def WorkerState.text : WorkerState → Text
  | .running => codePoints "running"
  | .exited => codePoints "exited"
  | .terminated => codePoints "terminated"
  | .unavailable => codePoints "unavailable"

/-- The states that a result can name. -/
def resultStates : List WorkerState := [.running, .exited, .terminated]

structure SupervisorObservation where
  state : WorkerState
  observedAt : Int
  workerPid : Int
  processStartTicks : Option Int := none
  signal : Option Text := none
  sigkill : Bool := false
  processCount : Int := 0
  errorCode : Option Text := none
  deriving DecidableEq

def SupervisorObservation.exitConfirmed (o : SupervisorObservation) : Bool :=
  o.state == .exited || o.state == .terminated

/-- The exceptions that leave the client. -/
inductive Raised where
  | unicodeDecode | recursion | overflow
  deriving DecidableEq, Repr

/-- What a request depends on besides the bytes: the interpreter's digits, its calls and its
`str`, the identifiers of the request, and the time. -/
structure Request where
  decimals : Decimals
  frames : Nat
  str : Value → Text
  id : Text
  workerPid : Int
  now : Int

/-! ## Framing -/

def maxMessageBytes : Nat := 4096

/-- The byte of a line break. -/
def lineFeed : UInt8 := 10

/-- The bytes that `_read_line` collects: up to the end of the stream, or to a chunk with a line
break. None when they are too many. -/
def received : List UInt8 → List (List UInt8) → Option (List UInt8)
  | bytes, [] => some bytes
  | bytes, chunk :: rest =>
    if chunk = [] then some bytes
    else if maxMessageBytes < (bytes ++ chunk).length then none
    else if lineFeed ∈ chunk then some (bytes ++ chunk)
    else received (bytes ++ chunk) rest

/-- The bytes of the line, unless `_read_line` raises an `OSError`. -/
def readLine (chunks : List (List UInt8)) : Option (List UInt8) :=
  match received [] chunks with
  | none => none
  | some bytes =>
    if bytes.getLast? = some lineFeed ∧ bytes.count lineFeed = 1 then some bytes.dropLast
    else none

/-- `bytes.decode("utf-8")`. -/
def decodeUtf8 (bytes : List UInt8) : Option Text :=
  (ByteArray.mk bytes.toArray).utf8Decode?.map fun chars => chars.toList.map .char

namespace Request

variable (q : Request)

def unavailable (errorCode : Text) : SupervisorObservation where
  state := .unavailable
  observedAt := q.now
  workerPid := q.workerPid
  errorCode := some errorCode

/-! ## The envelope -/

/-- How the decoding fails: with an exception that is caught, or with an `OverflowError`. -/
inductive Failure where
  | caught | overflow
  deriving DecidableEq, Repr

/-- `int(d[key])`. -/
def intOf (v : Option Value) : Except Failure Int :=
  match v with
  | none => .error .caught
  | some v => match v.toInt q.decimals with
    | .ok n => .ok n
    | .error .overflow => .error .overflow
    | .error _ => .error .caught

/-- `value == 1`. -/
def equalsOne : Option Value → Bool
  | some (.int n) => n == 1
  | some (.bool b) => b
  | some (.float x) => x == .fin 1
  | _ => false

def isText (t : Text) : Option Value → Bool
  | some (.str s) => s == t
  | _ => false

/-- `d.get(key) or 0`. -/
def orZero : Option Value → Value
  | some v => if v.truthy then v else .int 0
  | none => .int 0

def stateOf : Option Value → Option WorkerState
  | some (.str s) => resultStates.find? (·.text = s)
  | _ => none

/-- The state needs a process. -/
def needsProcess (s : WorkerState) : Bool := s == .running || s == .terminated

/-- `int(result["process_start_ticks"])`, when there is one. -/
def ticksOf (v : Option Value) : Except Failure (Option Int) :=
  match v with
  | none | some .none => .ok none
  | some v => (q.intOf (some v)).map some

def signalOf : Option Value → Option Text
  | none | some .none => none
  | some (.str s) => some s
  | some v => some (q.str v)

def readResult (result : List (Text × Value)) : Except Failure SupervisorObservation :=
  match stateOf (Value.get result "state") with
  | none => .error .caught
  | some state => do
    let observedAt ← q.intOf (Value.get result "observed_at")
    let workerPid ← q.intOf (Value.get result "worker_pid")
    let processCount ← q.intOf (some (orZero (Value.get result "process_count")))
    if observedAt ≤ 0 ∨ workerPid ≠ q.workerPid ∨ processCount < 0 ∨
        needsProcess state = true ∧ processCount < 1 then
      throw .caught
    let processStartTicks ← q.ticksOf (Value.get result "process_start_ticks")
    pure
      { state, observedAt, workerPid, processStartTicks, processCount
        signal := q.signalOf (Value.get result "signal")
        sigkill := ((Value.get result "sigkill").map Value.truthy).getD false }

/-- `str(code or "supervisor_rejected")`. -/
def rejection (error : Option Value) : Text :=
  match error with
  | some (.dict entries) =>
    match Value.get entries "code" with
    | some (.str s) => if s = [] then codePoints "supervisor_rejected" else s
    | some v => if v.truthy then q.str v else codePoints "supervisor_rejected"
    | none => codePoints "supervisor_rejected"
  | _ => codePoints "supervisor_rejected"

def readResponse (response : Value) : Except Failure SupervisorObservation :=
  match response with
  | .dict entries =>
    if ¬ equalsOne (Value.get entries "v") ∨ ¬ isText q.id (Value.get entries "id") then
      .error .caught
    else
      match Value.get entries "ok" with
      | some (.bool true) =>
        match Value.get entries "result" with
        | some (.dict result) => q.readResult result
        | _ => .error .caught
      | some (.bool false) => .ok (q.unavailable (q.rejection (Value.get entries "error")))
      | _ => .error .caught
  | _ => .error .caught

/-- What the client reports for the chunks that the socket returns. -/
def receive (chunks : List (List UInt8)) : Except Raised SupervisorObservation :=
  match readLine chunks with
  | none => .ok (q.unavailable (codePoints "supervisor_unavailable"))
  | some line =>
    match decodeUtf8 line with
    | none => .error .unicodeDecode
    | some text =>
      match loads q.frames text with
      | .error .recursion => .error .recursion
      | .error .value => .ok (q.unavailable (codePoints "invalid_supervisor_response"))
      | .ok response =>
        match q.readResponse response with
        | .ok o => .ok o
        | .error .caught => .ok (q.unavailable (codePoints "invalid_supervisor_response"))
        | .error .overflow => .error .overflow

/-! ## Well-formed envelopes -/

/-- A result as the Supervisor writes one: the state, and each field of its own JSON type. -/
structure WellFormedResult (state : WorkerState) (result : List (Text × Value)) : Prop where
  named : state ∈ resultStates ∧ Value.get result "state" = some (.str state.text)
  observedAt : ∃ n, 0 < n ∧ Value.get result "observed_at" = some (.int n)
  workerPid : Value.get result "worker_pid" = some (.int q.workerPid)
  processCount : ∃ n, 0 ≤ n ∧ (needsProcess state = true → 1 ≤ n) ∧
    (Value.get result "process_count" = some (.int n) ∨
      n = 0 ∧ (Value.get result "process_count" = none ∨
        Value.get result "process_count" = some .none))
  processStartTicks : Value.get result "process_start_ticks" = none ∨
    Value.get result "process_start_ticks" = some .none ∨
    ∃ n, Value.get result "process_start_ticks" = some (.int n)
  signal : Value.get result "signal" = none ∨ Value.get result "signal" = some .none ∨
    ∃ s, Value.get result "signal" = some (.str s)
  sigkill : Value.get result "sigkill" = none ∨ ∃ b, Value.get result "sigkill" = some (.bool b)

/-- A version-1 envelope with the identifier of the request, and a result about its worker. -/
def WellFormed (state : WorkerState) (response : Value) : Prop :=
  ∃ entries result, response = .dict entries ∧ Value.get entries "v" = some (.int 1) ∧
    Value.get entries "id" = some (.str q.id) ∧ Value.get entries "ok" = some (.bool true) ∧
    Value.get entries "result" = some (.dict result) ∧ q.WellFormedResult state result

/-- The bytes are one line of JSON. -/
def Carries (chunks : List (List UInt8)) (response : Value) : Prop :=
  ∃ line text, readLine chunks = some line ∧ decodeUtf8 line = some text ∧
    loads q.frames text = .ok response

/-- What the client promises of the bytes: it reports, it confirms an exit only for a well-formed
envelope that says so, and bytes that are no well-formed envelope make the worker unavailable. -/
def Promise (chunks : List (List UInt8)) : Prop :=
  ∃ o, q.receive chunks = .ok o ∧
    (o.exitConfirmed = true → ∃ response state, q.Carries chunks response ∧
      q.WellFormed state response ∧ (state = .exited ∨ state = .terminated)) ∧
    ((∀ response state, q.Carries chunks response → ¬ q.WellFormed state response) →
      o.state = .unavailable)

/-! ## What the client takes for one -/

/-- `int` reads the field as the number. -/
def Reads (v : Option Value) (n : Int) : Prop := ∃ x, v = some x ∧ x.toInt q.decimals = .ok n

/-- The field is an infinite float, which `int` has no exception for that is caught. -/
def Infinite (v : Option Value) : Prop := ∃ negative, v = some (.float (.inf negative))

/-- The envelope as the client checks it. -/
def Addressed (response : Value) (state : WorkerState) (result : List (Text × Value)) : Prop :=
  ∃ entries, response = .dict entries ∧ equalsOne (Value.get entries "v") = true ∧
    Value.get entries "id" = some (.str q.id) ∧ Value.get entries "ok" = some (.bool true) ∧
    Value.get entries "result" = some (.dict result) ∧ state ∈ resultStates ∧
    Value.get result "state" = some (.str state.text)

/-- The result as the client checks it. -/
structure Accepted (state : WorkerState) (result : List (Text × Value)) (n c : Int) : Prop where
  observedAt : q.Reads (Value.get result "observed_at") n ∧ 0 < n
  workerPid : q.Reads (Value.get result "worker_pid") q.workerPid
  processCount : q.Reads (some (orZero (Value.get result "process_count"))) c ∧ 0 ≤ c ∧
    (needsProcess state = true → 1 ≤ c)

/-- An infinite float stands where the client converts a field. -/
def Overflows (state : WorkerState) (result : List (Text × Value)) : Prop :=
  Infinite (Value.get result "observed_at") ∨
  (∃ n, q.Reads (Value.get result "observed_at") n) ∧
    (Infinite (Value.get result "worker_pid") ∨
      (∃ p, q.Reads (Value.get result "worker_pid") p) ∧
        (Infinite (some (orZero (Value.get result "process_count"))) ∨
          (∃ n c, q.Accepted state result n c) ∧
            Infinite (Value.get result "process_start_ticks")))

/-- The fields have the JSON types that the Supervisor writes. -/
structure Typed (response : Value) (result : List (Text × Value)) : Prop where
  version : ∃ entries n, response = .dict entries ∧ Value.get entries "v" = some (.int n)
  observedAt : ∃ n, Value.get result "observed_at" = some (.int n)
  workerPid : ∃ n, Value.get result "worker_pid" = some (.int n)
  processCount : Value.get result "process_count" = none ∨
    Value.get result "process_count" = some .none ∨
    ∃ n, Value.get result "process_count" = some (.int n)
  processStartTicks : Value.get result "process_start_ticks" = none ∨
    Value.get result "process_start_ticks" = some .none ∨
    ∃ n, Value.get result "process_start_ticks" = some (.int n)
  signal : Value.get result "signal" = none ∨ Value.get result "signal" = some .none ∨
    ∃ s, Value.get result "signal" = some (.str s)
  sigkill : Value.get result "sigkill" = none ∨ ∃ b, Value.get result "sigkill" = some (.bool b)

/-- When the client keeps its promise: the line is UTF-8, its nesting fits the interpreter, and
an addressed envelope has no infinite float where one is converted, and fields of the right types
when it passes the client's checks. -/
def Sound (chunks : List (List UInt8)) : Prop :=
  ∀ line, readLine chunks = some line → ∃ text, decodeUtf8 line = some text ∧
    loads q.frames text ≠ .error .recursion ∧
    ∀ response state result, loads q.frames text = .ok response →
      q.Addressed response state result → ¬ q.Overflows state result ∧
        ((∃ n c, q.Accepted state result n c) →
          (∃ ticks, q.ticksOf (Value.get result "process_start_ticks") = .ok ticks) →
          Typed response result)

section Reading

variable {q} {v : Option Value} {n : Int} {state : WorkerState} {result : List (Text × Value)}
  {o : SupervisorObservation} {response : Value}

theorem toInt_overflow {D : Decimals} {x : Value} :
    x.toInt D = .error .overflow ↔ ∃ negative, x = .float (.inf negative) := by
  cases x with
  | float x =>
    cases x <;> simp [Value.toInt, Double.toInt, Except.mapError, Python.NumberError.raised]
  | str s =>
    simp only [Value.toInt, reduceCtorEq, exists_false, iff_false]
    split
    · rw [Decimals.intOfText]
      split <;> simp
    · simp
  | _ => simp [Value.toInt]

theorem intOf_ok : q.intOf v = .ok n ↔ q.Reads v n := by
  cases v with
  | none => simp [intOf, Reads]
  | some x =>
    simp only [intOf, Reads, Option.some.injEq, exists_eq_left']
    split <;> simp_all

theorem intOf_overflow : q.intOf v = .error .overflow ↔ Infinite v := by
  cases v with
  | none => simp [intOf, Infinite]
  | some x =>
    simp only [intOf, Infinite, Option.some.injEq, ← toInt_overflow (D := q.decimals)]
    split <;> simp_all

theorem stateOf_some : stateOf v = some state ↔
    state ∈ resultStates ∧ v = some (.str state.text) := by
  constructor
  · intro h
    unfold stateOf at h
    split at h
    case h_1 s =>
      have hs := List.find?_some h
      exact ⟨List.mem_of_find?_eq_some h, by rw [of_decide_eq_true hs]⟩
    case h_2 => cases h
  · rintro ⟨hmem, rfl⟩
    cases state with
    | unavailable => simp [resultStates] at hmem
    | _ => rfl

/-- The client's checks of the numbers, in its own words. -/
theorem bounds_iff {observedAt pid wanted count : Int} :
    ¬ (observedAt ≤ 0 ∨ pid ≠ wanted ∨ count < 0 ∨ needsProcess state = true ∧ count < 1) ↔
      0 < observedAt ∧ pid = wanted ∧ 0 ≤ count ∧ (needsProcess state = true → 1 ≤ count) := by
  simp only [not_or, not_and, not_le, not_lt, ne_eq, not_not]

theorem readResult_of (hstate : stateOf (Value.get result "state") = some state) {n c : Int}
    (h : q.Accepted state result n c) :
    q.readResult result = (q.ticksOf (Value.get result "process_start_ticks")).map fun ticks =>
      { state, observedAt := n, workerPid := q.workerPid, processStartTicks := ticks
        processCount := c, signal := q.signalOf (Value.get result "signal")
        sigkill := ((Value.get result "sigkill").map Value.truthy).getD false } := by
  have hbounds := bounds_iff.mpr ⟨h.observedAt.2, Eq.refl q.workerPid, h.processCount.2⟩
  simp only [readResult, hstate, intOf_ok.mpr h.observedAt.1, intOf_ok.mpr h.workerPid,
    intOf_ok.mpr h.processCount.1, bind, Except.bind, if_neg hbounds]
  cases q.ticksOf (Value.get result "process_start_ticks") <;> rfl

/-- A result that is read is one the client accepts. -/
theorem readResult_ok (hstate : stateOf (Value.get result "state") = some state)
    (h : q.readResult result = .ok o) :
    o.state = state ∧ ∃ n c ticks, q.Accepted state result n c ∧
      q.ticksOf (Value.get result "process_start_ticks") = .ok ticks := by
  simp only [readResult, hstate, bind, Except.bind] at h
  cases hobserved : q.intOf (Value.get result "observed_at") with
  | error e => simp [hobserved] at h
  | ok n =>
    cases hpid : q.intOf (Value.get result "worker_pid") with
    | error e => simp [hobserved, hpid] at h
    | ok pid =>
      cases hcount : q.intOf (some (orZero (Value.get result "process_count"))) with
      | error e => simp [hobserved, hpid, hcount] at h
      | ok c =>
        simp only [hobserved, hpid, hcount] at h
        split_ifs at h with hbounds
        obtain ⟨hpos, rfl, hrange⟩ := bounds_iff.mp hbounds
        cases hticks : q.ticksOf (Value.get result "process_start_ticks") with
        | error e => simp [hticks] at h
        | ok ticks =>
          simp only [hticks, pure, Except.pure] at h
          obtain rfl := Except.ok.inj h
          exact ⟨rfl, n, c, ticks, ⟨⟨intOf_ok.mp hobserved, hpos⟩, intOf_ok.mp hpid,
            intOf_ok.mp hcount, hrange⟩, rfl⟩

theorem ticksOf_overflow : q.ticksOf v = .error .overflow ↔ Infinite v := by
  cases v with
  | none => simp [ticksOf, Infinite]
  | some x =>
    rw [← intOf_overflow (q := q)]
    cases x with
    | none => simp [ticksOf, intOf, Value.toInt]
    | _ =>
      simp only [ticksOf]
      generalize q.intOf _ = r
      cases r <;> simp [Except.map]

theorem Reads.finite (h : q.Reads v n) : ¬ Infinite v := by
  rintro ⟨negative, rfl⟩
  obtain ⟨x, hx, hread⟩ := h
  obtain rfl := Option.some.inj hx
  simp [Value.toInt, Double.toInt, Except.mapError] at hread

/-- An `OverflowError` comes from the first field that is infinite, when those before it pass. -/
theorem readResult_overflow (hstate : stateOf (Value.get result "state") = some state) :
    q.readResult result = .error .overflow ↔ q.Overflows state result := by
  simp only [readResult, hstate, bind, Except.bind, Overflows, ← intOf_overflow (q := q),
    ← intOf_ok]
  cases hobserved : q.intOf (Value.get result "observed_at") with
  | error e => simp
  | ok n =>
    cases hpid : q.intOf (Value.get result "worker_pid") with
    | error e => simp
    | ok pid =>
      cases hcount : q.intOf (some (orZero (Value.get result "process_count"))) with
      | error e =>
        have hno : ∀ n c, ¬ q.Accepted state result n c := by
          intro n c h
          rw [intOf_ok.mpr h.processCount.1] at hcount
          cases hcount
        simp [hno]
      | ok c =>
        have haccepted : (∃ n c, q.Accepted state result n c) ↔
            ¬ (n ≤ 0 ∨ pid ≠ q.workerPid ∨ c < 0 ∨ needsProcess state = true ∧ c < 1) := by
          rw [bounds_iff]
          constructor
          · rintro ⟨n', c', ⟨hn, hpos⟩, hp, hc, hrange⟩
            rw [← intOf_ok] at hn hp hc
            obtain rfl := Except.ok.inj (hobserved.symm.trans hn)
            obtain rfl := Except.ok.inj (hpid.symm.trans hp)
            obtain rfl := Except.ok.inj (hcount.symm.trans hc)
            exact ⟨hpos, rfl, hrange⟩
          · rintro ⟨hpos, rfl, hrange⟩
            exact ⟨n, c, ⟨intOf_ok.mp hobserved, hpos⟩, intOf_ok.mp hpid, intOf_ok.mp hcount,
              hrange⟩
        rw [haccepted, intOf_overflow, ← ticksOf_overflow (q := q)]
        by_cases hbounds : n ≤ 0 ∨ pid ≠ q.workerPid ∨ c < 0 ∨ needsProcess state = true ∧ c < 1
        · simp only [if_pos hbounds]
          simp [hbounds, throw, throwThe, MonadExceptOf.throw]
        · simp only [if_neg hbounds]
          cases q.ticksOf (Value.get result "process_start_ticks") <;>
            simp [hbounds, pure, Except.pure]

theorem isText_iff {t : Text} : isText t v = true ↔ v = some (.str t) := by
  unfold isText
  split <;> simp_all

theorem readResponse_addressed (h : q.Addressed response state result) :
    q.readResponse response = q.readResult result ∧
      stateOf (Value.get result "state") = some state := by
  obtain ⟨entries, rfl, hversion, hid, hok, hresult, hstate⟩ := h
  refine ⟨?_, stateOf_some.mpr hstate⟩
  simp [readResponse, hversion, isText_iff.mpr hid, hok, hresult]

/-- Any other response makes the worker unavailable. -/
theorem readResponse_other (h : ∀ state result, ¬ q.Addressed response state result) :
    q.readResponse response = .error .caught ∨
      ∃ code, q.readResponse response = .ok (q.unavailable code) := by
  unfold readResponse
  split
  case h_2 => exact .inl rfl
  case h_1 entries =>
    split
    case isTrue => exact .inl rfl
    case isFalse hhead =>
      rw [not_or, not_not, not_not] at hhead
      split
      case h_2 => exact .inr ⟨_, rfl⟩
      case h_3 => exact .inl rfl
      case h_1 hok =>
        split
        case h_2 => exact .inl rfl
        case h_1 result hresult =>
          left
          unfold readResult
          split
          case h_1 => rfl
          case h_2 state hstate =>
            exact absurd ⟨entries, rfl, hhead.1, isText_iff.mp hhead.2, hok, hresult,
              stateOf_some.mp hstate⟩ (h state result)

theorem Addressed.unique {state' : WorkerState} {result' : List (Text × Value)}
    (h : q.Addressed response state result) (h' : q.Addressed response state' result') :
    state = state' ∧ result = result' := by
  have hstate := (readResponse_addressed h).2
  have hstate' := (readResponse_addressed h').2
  obtain ⟨entries, rfl, -, -, -, hresult, -⟩ := h
  obtain ⟨entries', heq, -, -, -, hresult', -⟩ := h'
  obtain rfl := Value.dict.inj heq
  obtain rfl := Value.dict.inj (Option.some.inj (hresult.symm.trans hresult'))
  exact ⟨Option.some.inj (hstate.symm.trans hstate'), rfl⟩

theorem Reads.int {m : Int} (h : q.Reads v n) (hv : v = some (.int m)) : m = n := by
  obtain ⟨x, hx, hread⟩ := h
  rw [hv] at hx
  obtain rfl := Option.some.inj hx
  exact Except.ok.inj hread

theorem orZero_int (m : Int) : orZero (some (.int m)) = .int m := by
  by_cases hm : m = 0
  · subst hm
    rfl
  · simp [orZero, Value.truthy, hm]

/-- What the client accepts is well formed, when the types are right. -/
theorem Accepted.wellFormed {n c : Int} (h : q.Accepted state result n c)
    (haddressed : q.Addressed response state result) (htyped : Typed response result) :
    q.WellFormed state response := by
  obtain ⟨entries, rfl, hversion, hid, hok, hresult, hstate⟩ := haddressed
  obtain ⟨entries', m, heq, hm⟩ := htyped.version
  obtain rfl := Value.dict.inj heq
  refine ⟨entries, result, rfl, ?_, hid, hok, hresult, hstate, ?_, ?_, ?_,
    htyped.processStartTicks, htyped.signal, htyped.sigkill⟩
  · rw [hm] at hversion ⊢
    rw [of_decide_eq_true hversion]
  · obtain ⟨k, hk⟩ := htyped.observedAt
    obtain rfl := h.observedAt.1.int hk
    exact ⟨k, h.observedAt.2, hk⟩
  · obtain ⟨k, hk⟩ := htyped.workerPid
    obtain rfl := h.workerPid.int hk
    exact hk
  · have hcount := h.processCount.1
    refine ⟨c, h.processCount.2.1, h.processCount.2.2, ?_⟩
    rcases htyped.processCount with hnone | hnull | ⟨k, hk⟩
    · rw [hnone] at hcount
      exact .inr ⟨(hcount.int rfl).symm, .inl hnone⟩
    · rw [hnull] at hcount
      exact .inr ⟨(hcount.int rfl).symm, .inr hnull⟩
    · rw [hk, orZero_int] at hcount
      obtain rfl := hcount.int rfl
      exact .inl hk

theorem WellFormed.typed (h : q.WellFormed state response)
    {state' : WorkerState} (haddressed : q.Addressed response state' result) :
    Typed response result := by
  obtain ⟨entries, result', rfl, hversion, hid, hok, hresult, hwell⟩ := h
  obtain ⟨entries', heq, -, -, -, hresult', -⟩ := haddressed
  obtain rfl := Value.dict.inj heq
  obtain rfl := Value.dict.inj (Option.some.inj (hresult.symm.trans hresult'))
  obtain ⟨n, -, hobserved⟩ := hwell.observedAt
  obtain ⟨c, -, -, hcount⟩ := hwell.processCount
  refine ⟨⟨entries, 1, rfl, hversion⟩, ⟨n, hobserved⟩, ⟨_, hwell.workerPid⟩, ?_,
    hwell.processStartTicks, hwell.signal, hwell.sigkill⟩
  rcases hcount with hc | ⟨-, hc | hc⟩
  · exact .inr (.inr ⟨c, hc⟩)
  · exact .inl hc
  · exact .inr (.inl hc)

theorem promise_of_unavailable {chunks : List (List UInt8)} {code : Text}
    (h : q.receive chunks = .ok (q.unavailable code)) : q.Promise chunks := by
  refine ⟨_, h, fun hconfirmed => ?_, fun _ => rfl⟩
  cases hconfirmed

theorem not_promise_of_raised {chunks : List (List UInt8)} {e : Raised}
    (h : q.receive chunks = .error e) : ¬ q.Promise chunks := by
  rintro ⟨o, ho, -⟩
  rw [h] at ho
  cases ho

/-- What is asked of a response. -/
def SoundResponse (q : Request) (response : Value) : Prop :=
  ∀ state result, q.Addressed response state result → ¬ q.Overflows state result ∧
    ((∃ n c, q.Accepted state result n c) →
      (∃ ticks, q.ticksOf (Value.get result "process_start_ticks") = .ok ticks) →
      Typed response result)

/-- The promise about a line with a response. -/
theorem promise_response {chunks : List (List UInt8)} {line : List UInt8} {text : Text}
    (hline : readLine chunks = some line) (htext : decodeUtf8 line = some text)
    (hloads : loads q.frames text = .ok response) :
    q.Promise chunks ↔ q.SoundResponse response := by
  have hcarries : ∀ other, q.Carries chunks other → other = response := by
    rintro other ⟨line', text', hline', htext', hloads'⟩
    obtain rfl := Option.some.inj (hline.symm.trans hline')
    obtain rfl := Option.some.inj (htext.symm.trans htext')
    exact Except.ok.inj (hloads'.symm.trans hloads)
  by_cases haddressed : ∃ state result, q.Addressed response state result
  case neg =>
    have hnone : ∀ state result, ¬ q.Addressed response state result := fun state result h =>
      haddressed ⟨state, result, h⟩
    refine iff_of_true ?_ fun state result h => absurd h (hnone state result)
    rcases readResponse_other hnone with hcaught | ⟨code, hcode⟩
    · have hreceive : q.receive chunks =
          .ok (q.unavailable (codePoints "invalid_supervisor_response")) := by
        simp only [receive, hline, htext, hloads, hcaught]
      exact promise_of_unavailable hreceive
    · have hreceive : q.receive chunks = .ok (q.unavailable code) := by
        simp only [receive, hline, htext, hloads, hcode]
      exact promise_of_unavailable hreceive
  case pos =>
    obtain ⟨state, result, haddressed⟩ := haddressed
    obtain ⟨hread, hstate⟩ := readResponse_addressed haddressed
    cases hresult : q.readResult result with
    | error e =>
      rw [hresult] at hread
      cases e with
      | overflow =>
        have hreceive : q.receive chunks = .error .overflow := by
          simp only [receive, hline, htext, hloads, hread]
        exact iff_of_false (not_promise_of_raised hreceive) fun h =>
          (h state result haddressed).1 ((readResult_overflow hstate).mp hresult)
      | caught =>
        have hreceive : q.receive chunks =
            .ok (q.unavailable (codePoints "invalid_supervisor_response")) := by
          simp only [receive, hline, htext, hloads, hread]
        refine iff_of_true (promise_of_unavailable hreceive) fun state' result' h => ?_
        obtain ⟨rfl, rfl⟩ := haddressed.unique h
        refine ⟨fun hoverflow => ?_, fun ⟨n, c, haccepted⟩ ⟨ticks, hticks⟩ => ?_⟩
        · rw [(readResult_overflow hstate).mpr hoverflow] at hresult
          cases hresult
        · rw [readResult_of hstate haccepted, hticks] at hresult
          cases hresult
    | ok o =>
      obtain ⟨ho, n, c, ticks, haccepted, hticks⟩ := readResult_ok hstate hresult
      have hreceive : q.receive chunks = .ok o := by
        simp only [receive, hline, htext, hloads, hread, hresult]
      have hnot : ¬ q.Overflows state result := by
        intro hoverflow
        rw [(readResult_overflow hstate).mpr hoverflow] at hresult
        cases hresult
      constructor
      · rintro ⟨o', ho', -, hother⟩ state' result' h
        obtain ⟨rfl, rfl⟩ := haddressed.unique h
        obtain rfl := Except.ok.inj (hreceive.symm.trans ho')
        refine ⟨hnot, fun _ _ => ?_⟩
        by_contra htyped
        have hunavailable := hother fun other state' hother hwell => by
          obtain rfl := hcarries other hother
          exact htyped (hwell.typed haddressed)
        rw [ho] at hunavailable
        have hmem := (stateOf_some.mp hstate).1
        rw [hunavailable] at hmem
        simp [resultStates] at hmem
      · intro hsound
        have htyped := (hsound state result haddressed).2 ⟨n, c, haccepted⟩ ⟨ticks, hticks⟩
        have hwell := haccepted.wellFormed haddressed htyped
        have hresponse : q.Carries chunks response := ⟨line, text, hline, htext, hloads⟩
        refine ⟨o, hreceive, fun hconfirmed => ⟨response, state, hresponse, hwell, ?_⟩,
          fun hnone => absurd hwell (hnone response state hresponse)⟩
        rw [SupervisorObservation.exitConfirmed, ho] at hconfirmed
        simpa using hconfirmed

/-- **When the client keeps its promise**: exactly for sound bytes. -/
theorem promise_iff (q : Request) (chunks : List (List UInt8)) :
    q.Promise chunks ↔ q.Sound chunks := by
  cases hline : readLine chunks with
  | none =>
    have hreceive : q.receive chunks =
        .ok (q.unavailable (codePoints "supervisor_unavailable")) := by
      simp only [receive, hline]
    refine iff_of_true (promise_of_unavailable hreceive) fun line h => ?_
    rw [hline] at h
    cases h
  | some line =>
    cases htext : decodeUtf8 line with
    | none =>
      have hreceive : q.receive chunks = .error .unicodeDecode := by
        simp only [receive, hline, htext]
      refine iff_of_false (not_promise_of_raised hreceive) fun h => ?_
      obtain ⟨text, hsome, -⟩ := h line hline
      rw [htext] at hsome
      cases hsome
    | some text =>
      have hsound : q.Sound chunks ↔ loads q.frames text ≠ .error .recursion ∧
          ∀ response, loads q.frames text = .ok response → q.SoundResponse response := by
        constructor
        · intro h
          obtain ⟨text', hsome, hdeep, hrest⟩ := h line hline
          obtain rfl := Option.some.inj (htext.symm.trans hsome)
          exact ⟨hdeep, fun response hresponse state result =>
            hrest response state result hresponse⟩
        · intro h line' hline'
          obtain rfl := Option.some.inj (hline'.symm.trans hline)
          exact ⟨text, htext, h.1, fun response state result hresponse =>
            h.2 response hresponse state result⟩
      rw [hsound]
      cases hloads : loads q.frames text with
      | error e =>
        cases e with
        | recursion =>
          have hreceive : q.receive chunks = .error .recursion := by
            simp only [receive, hline, htext, hloads]
          exact iff_of_false (not_promise_of_raised hreceive) fun h => h.1 rfl
        | value =>
          have hreceive : q.receive chunks =
              .ok (q.unavailable (codePoints "invalid_supervisor_response")) := by
            simp only [receive, hline, htext, hloads]
          refine iff_of_true (promise_of_unavailable hreceive) ⟨by simp, fun response h => ?_⟩
          cases h
      | ok response =>
        rw [promise_response hline htext hloads]
        constructor
        · intro h
          refine ⟨by simp, fun other hother => ?_⟩
          obtain rfl := Except.ok.inj hother
          exact h
        · intro h
          exact h.2 response rfl

end Reading

end Request

/-! ## Samples -/

def sampleRequest : Request where
  decimals := asciiDecimals
  frames := 1000
  str _ := []
  id := codePoints "r1"
  workerPid := 42
  now := 7

/-- A line with a byte that UTF-8 never has: the `UnicodeDecodeError` leaves the client. -/
theorem sampleRequest_undecodable :
    sampleRequest.receive [[255, lineFeed]] = .error .unicodeDecode ∧
      ¬ sampleRequest.Promise [[255, lineFeed]] := by
  have hraised : sampleRequest.receive [[255, lineFeed]] = .error .unicodeDecode := by
    decide +kernel
  exact ⟨hraised, Request.not_promise_of_raised hraised⟩

end HollysysController.Supervisor
