import HollysysController.Python.Compact
import HollysysController.SupervisorTermination

/-! # The connections of the Supervisor

What the server makes of a connection: the peer, the bytes of a request in the chunks in which
they come, and the line that it answers; and the line that the client asks with. Between the two
a call says to the client what the server found out about the worker. -/

namespace HollysysController.WorkerSupervisor

open Durable
open Python (Text Value CodePoint Double codePoints)
open Python.Json (compact Written loads)
open Supervisor (SupervisorObservation lineFeed maxMessageBytes)

/-! ## Bytes -/

/-- The encodings that `json.loads` tells apart. -/
inductive Encoding where
  | utf8 | utf8Sig | utf16 | utf16be | utf16le | utf32 | utf32be | utf32le
  deriving DecidableEq, Repr

/-- `json.detect_encoding`. -/
def detectEncoding (bytes : List UInt8) : Encoding :=
  if [0, 0, 0xFE, 0xFF].isPrefixOf bytes || [0xFF, 0xFE, 0, 0].isPrefixOf bytes then .utf32
  else if [0xFE, 0xFF].isPrefixOf bytes || [0xFF, 0xFE].isPrefixOf bytes then .utf16
  else if [0xEF, 0xBB, 0xBF].isPrefixOf bytes then .utf8Sig
  else match bytes with
    | [x, y] => if x = 0 then .utf16be else if y = 0 then .utf16le else .utf8
    | x :: y :: z :: w :: _ =>
      if x = 0 then (if y = 0 then .utf32be else .utf16be)
      else if y = 0 then (if z = 0 ∧ w = 0 then .utf32le else .utf16le)
      else .utf8
    | _ => .utf8

/-- `text.encode("utf-8")`. -/
def encodeUtf8 (text : List Char) : List UInt8 := text.flatMap String.utf8EncodeChar

/-- `bytes.decode(encoding, "surrogatepass")`, none for a `UnicodeDecodeError`. -/
structure Codecs where
  decode : Encoding → List UInt8 → Option Text
  utf8 : ∀ text : List Char, decode .utf8 (encodeUtf8 text) = some (text.map .char)

/-- The line of a value, in bytes. A number with too many digits has no text. -/
def encodeLine (repr : Double → Text) (v : Value) : Option (List UInt8) :=
  if Written v then
    (Python.encode (compact repr v ++ [CodePoint.char '\n'])).map encodeUtf8
  else none

/-! ## The server -/

/-- What a server depends on besides its configuration. -/
structure Endpoint where
  cfg : Config
  expectedGid : Nat
  codecs : Codecs
  frames : Nat
  str : Value → Text
  repr : Double → Text

/-- What `recv` does: it gives bytes, none at the end of the stream, or raises `TimeoutError`. -/
inductive Recv where
  | chunk (bytes : List UInt8)
  | timeout
  deriving DecidableEq

/-- Why a request is not handled. -/
inductive Refusal where
  | timeout
  | request (code : String)
  /-- Any other exception. -/
  | internal
  deriving DecidableEq

def Refusal.code : Refusal → String
  | .timeout => "request_timeout"
  | .request code => code
  | .internal => "internal_error"

/-- The exception of a handler, as the connection sees it. -/
def Refusal.ofError : Error → Refusal
  | .request code => .request code
  | _ => .internal

/-- The bytes that `_read_request` collects. -/
def collect : List UInt8 → List Recv → Except Refusal (List UInt8)
  | raw, [] => .ok raw
  | _, .timeout :: _ => .error .timeout
  | raw, .chunk bytes :: rest =>
    if bytes = [] then .ok raw
    else if maxMessageBytes < (raw ++ bytes).length then .error (.request "request_too_large")
    else if lineFeed ∈ bytes then .ok (raw ++ bytes)
    else collect (raw ++ bytes) rest

def responseFields (id : Text) (ok : Bool) (field : String) (v : Value) : List (Text × Value) :=
  [(codePoints "v", .int 1), (codePoints "id", .str id), (codePoints "ok", .bool ok),
    (codePoints field, v)]

/-- The dictionaries that `handle_request` returns. -/
def resultFields (o : SupervisorObservation) : List (Text × Value) :=
  [(codePoints "state", Value.str o.state.text), (codePoints "observed_at", .int o.observedAt),
    (codePoints "worker_pid", .int o.workerPid),
    (codePoints "process_start_ticks", (o.processStartTicks.map Value.int).getD .none)] ++
  (if o.state = .terminated then
    [(codePoints "signal", (o.signal.map Value.str).getD .none),
      (codePoints "sigkill", .bool o.sigkill)]
  else []) ++ [(codePoints "process_count", Value.int o.processCount)]

namespace Endpoint

variable (ep : Endpoint)

/-- `json.loads` of the bytes of a line. -/
def parseLine (line : List UInt8) : Except Refusal (List (Text × Value)) :=
  match ep.codecs.decode (detectEncoding line) line with
  | none => .error (.request "invalid_json")
  | some text =>
    match loads ep.frames text with
    | .error .value => .error (.request "invalid_json")
    | .error .recursion => .error .internal
    | .ok (.dict entries) => .ok entries
    | .ok _ => .error (.request "invalid_request")

def readRequest (received : List Recv) : Except Refusal (List (Text × Value)) := do
  let raw ← collect [] received
  if raw.getLast? ≠ some lineFeed ∨ raw.count lineFeed ≠ 1 then
    throw (.request "invalid_framing")
  ep.parseLine raw.dropLast

/-- `str(request.get("id") or "unknown")[:128]`. -/
def requestId (request : List (Text × Value)) : Text :=
  let id := match Value.get request "id" with
    | some (.str s) => if s = [] then codePoints "unknown" else s
    | some v => if v.truthy then ep.str v else codePoints "unknown"
    | none => codePoints "unknown"
  id.take 128

/-- The line that answers a request. -/
def respond (id : Text) (ok : Bool) (field : String) (v : Value) : Option (List UInt8) :=
  (encodeLine ep.repr (.dict (responseFields id ok field v))).map (·.take maxMessageBytes)

def refuse (id : Text) (r : Refusal) : Option (List UInt8) :=
  ep.respond id false "error" (.dict [(codePoints "code", .str (codePoints r.code))])

def answer (id : Text) : Except Error SupervisorObservation → Option (List UInt8)
  | .ok o => ep.respond id true "result" (.dict (resultFields o))
  | .error e => ep.refuse id (.ofError e)

/-- `_serve_connection`: what is sent to the peer. -/
def serveConnection (peerUid peerGid : Nat) (received : List Recv) :
    Server (Option (List UInt8)) :=
  if peerUid ≠ ep.cfg.expectedUid ∨ peerGid ≠ ep.expectedGid then
    pure (ep.refuse (codePoints "unknown") (.request "peer_not_authorized"))
  else
    match ep.readRequest received with
    | .error r => pure (ep.refuse (codePoints "unknown") r)
    | .ok request => do
      let r ← (handleRequest ep.cfg request).attempt
      pure (ep.answer (ep.requestId request) r)

end Endpoint

/-! ## The client -/

def Method.text : Method → Text
  | .probe => codePoints "probe"
  | .terminate => codePoints "terminate"

def paramFields (i : Identity) : List (Text × Value) :=
  [(codePoints "board", .str i.board), (codePoints "card_id", .str i.cardId),
    (codePoints "run_id", .int i.runId), (codePoints "worker_pid", .int i.workerPid)]

/-- The request of `_call`. -/
def requestFields (method : Method) (id : Text) (i : Identity) : List (Text × Value) :=
  [(codePoints "v", .int 1), (codePoints "id", .str id), (codePoints "method", .str method.text),
    (codePoints "params", .dict (paramFields i))]

/-- What the client is told. A response that is too long is cut off and ends no line. -/
def reported (q : Supervisor.Request) (bytes : List UInt8)
    (r : Except Error SupervisorObservation) : SupervisorObservation :=
  if bytes.getLast? ≠ some lineFeed then q.unavailable (codePoints "supervisor_unavailable")
  else match r with
    | .ok o =>
      if 0 < o.observedAt then o else q.unavailable (codePoints "invalid_supervisor_response")
    | .error e =>
      let code := codePoints (Refusal.ofError e).code
      q.unavailable (if code = [] then codePoints "supervisor_rejected" else code)

/-! ## Lines -/

section Lines

variable {repr : Double → Text} {v : Value} {chunks : List (List UInt8)} {bytes : List UInt8}

theorem decodeUtf8_encodeUtf8 (text : List Char) :
    Supervisor.decodeUtf8 (encodeUtf8 text) = some (text.map .char) := by
  have hbytes : ByteArray.mk (encodeUtf8 text).toArray = text.utf8Encode := by
    apply ByteArray.ext
    simp [List.utf8Encode, encodeUtf8]
  rw [Supervisor.decodeUtf8, hbytes, List.utf8Decode?_utf8Encode]
  rfl

/-- A printable character is one byte, and no line break. -/
theorem encodeUtf8_printable {text : List Char} (h : Python.Json.Printable (text.map .char)) :
    encodeUtf8 text = text.map (·.val.toUInt8) ∧ lineFeed ∉ encodeUtf8 text := by
  have hchar : ∀ c ∈ text, 32 ≤ c.toNat ∧ c.toNat < 127 := by
    intro c hc
    obtain ⟨d, hd, hrange⟩ := h (.char c) (List.mem_map_of_mem hc)
    rwa [CodePoint.char.inj hd]
  have hbytes : encodeUtf8 text = text.map (·.val.toUInt8) := by
    rw [encodeUtf8, ← List.flatMap_singleton' (text.map _), List.flatMap_map]
    refine List.flatMap_congr fun c hc => String.utf8EncodeChar_eq_singleton ?_
    have hsmall : c.val ≤ 127 := by
      have := (hchar c hc).2
      simp only [UInt32.le_iff_toNat_le]
      show c.toNat ≤ 127
      omega
    exact if_pos hsmall
  refine ⟨hbytes, fun hmem => ?_⟩
  rw [hbytes, List.mem_map] at hmem
  obtain ⟨c, hc, hbyte⟩ := hmem
  have hnat := congrArg UInt8.toNat hbyte
  have hval : c.val.toUInt8.toNat = c.toNat % 256 := rfl
  have hfeed : lineFeed.toNat = 10 := rfl
  have hrange := hchar c hc
  omega

/-- The line of a value: its text and a line break, the only one. -/
theorem encodeLine_spec (repr : Double → Text) (hregular : Python.Json.Regular v)
    (hwritten : Written v = true) :
    ∃ text : List Char, compact repr v = text.map .char ∧
      encodeLine repr v = some (encodeUtf8 text ++ [lineFeed]) ∧ lineFeed ∉ encodeUtf8 text := by
  have hprintable := Python.Json.compact_printable repr v hregular
  obtain ⟨text, htext⟩ : ∃ text : List Char, compact repr v = text.map .char := by
    clear hregular hwritten
    revert hprintable
    induction compact repr v with
    | nil => exact fun _ => ⟨[], rfl⟩
    | cons x t ih =>
      intro h
      obtain ⟨c, rfl, -⟩ := h x List.mem_cons_self
      obtain ⟨text, rfl⟩ := ih fun y hy => h y (List.mem_cons_of_mem _ hy)
      exact ⟨c :: text, rfl⟩
  refine ⟨text, htext, ?_, (encodeUtf8_printable (htext ▸ hprintable)).2⟩
  have hencode :
      Python.encode (compact repr v ++ [CodePoint.char '\n']) = some (text ++ ['\n']) := by
    rw [htext, ← Python.encode_map (text ++ ['\n']), List.map_append]
    rfl
  rw [encodeLine, if_pos hwritten, hencode, Option.map_some, encodeUtf8, List.flatMap_append]
  rfl

/-- No byte follows a line break. -/
def LastBreak (bytes : List UInt8) : Prop := ∀ u v, bytes = u ++ lineFeed :: v → v = []

theorem lastBreak_line {line : List UInt8} (h : lineFeed ∉ line) :
    LastBreak (line ++ [lineFeed]) := by
  intro u v huv
  rcases List.eq_nil_or_concat v with rfl | ⟨v, x, rfl⟩
  · rfl
  · rw [List.concat_eq_append, ← List.cons_append, ← List.append_assoc] at huv
    have hline := (List.append_inj' huv rfl).1
    exact absurd (hline ▸ List.mem_append_right u List.mem_cons_self) h

theorem lastBreak_free {line : List UInt8} (h : lineFeed ∉ line) : LastBreak line :=
  fun u _ huv => absurd (huv ▸ List.mem_append_right u List.mem_cons_self) h

/-- A chunk with a line break is the last one. -/
theorem LastBreak.chunk {bytes : List UInt8} {rest : List (List UInt8)}
    (h : LastBreak (bytes ++ rest.flatten)) (hbreak : lineFeed ∈ bytes)
    (hrest : ∀ c ∈ rest, c ≠ []) : rest = [] := by
  obtain ⟨u, v, rfl⟩ := List.append_of_mem hbreak
  have hnone := h u (v ++ rest.flatten) (by simp)
  cases rest with
  | nil => rfl
  | cons c rest =>
    have hc := (List.append_eq_nil_iff.mp hnone).2
    rw [List.flatten_cons, List.append_eq_nil_iff] at hc
    exact absurd hc.1 (hrest c List.mem_cons_self)

/-- The chunks do not matter to the client. -/
theorem received_flatten (hchunks : ∀ c ∈ chunks, c ≠ [])
    (hlength : (bytes ++ chunks.flatten).length ≤ maxMessageBytes)
    (hbreak : LastBreak chunks.flatten) :
    Supervisor.received bytes chunks = some (bytes ++ chunks.flatten) := by
  induction chunks generalizing bytes with
  | nil => simp [Supervisor.received]
  | cons c rest ih =>
    have hrest : ∀ d ∈ rest, d ≠ [] := fun d hd => hchunks d (List.mem_cons_of_mem _ hd)
    rw [List.flatten_cons] at hlength hbreak ⊢
    rw [← List.append_assoc] at hlength ⊢
    have hfits : ¬ maxMessageBytes < (bytes ++ c).length := by
      rw [List.length_append] at hlength
      omega
    rw [Supervisor.received, if_neg (hchunks c List.mem_cons_self), if_neg hfits]
    split
    · next hmem =>
      rw [hbreak.chunk hmem hrest, List.flatten_nil, List.append_nil]
    · next hmem =>
      refine ih hrest hlength fun u v huv => hbreak (c ++ u) v ?_
      rw [huv, List.append_assoc]

/-- Nor to the server. -/
theorem collect_flatten (hchunks : ∀ c ∈ chunks, c ≠ [])
    (hlength : (bytes ++ chunks.flatten).length ≤ maxMessageBytes)
    (hbreak : LastBreak chunks.flatten) :
    collect bytes (chunks.map .chunk) = .ok (bytes ++ chunks.flatten) := by
  induction chunks generalizing bytes with
  | nil => simp [collect]
  | cons c rest ih =>
    have hrest : ∀ d ∈ rest, d ≠ [] := fun d hd => hchunks d (List.mem_cons_of_mem _ hd)
    rw [List.flatten_cons] at hlength hbreak ⊢
    rw [← List.append_assoc] at hlength ⊢
    have hfits : ¬ maxMessageBytes < (bytes ++ c).length := by
      rw [List.length_append] at hlength
      omega
    rw [List.map_cons, collect, if_neg (hchunks c List.mem_cons_self), if_neg hfits]
    split
    · next hmem =>
      rw [hbreak.chunk hmem hrest, List.flatten_nil, List.append_nil]
    · next hmem =>
      refine ih hrest hlength fun u v huv => hbreak (c ++ u) v ?_
      rw [huv, List.append_assoc]

/-- A line that begins an object is taken for UTF-8. -/
theorem detectEncoding_object (rest : List UInt8) :
    detectEncoding (0x7B :: 0x22 :: rest) = .utf8 := by
  match rest with
  | [] => rfl
  | [_] => rfl
  | _ :: _ :: _ => rfl

/-- The text of an object begins with a brace and the quote of its first key. -/
theorem object_starts {e : Text × Value} {entries : List (Text × Value)} {text : List Char}
    (h : compact repr (.dict (e :: entries)) = text.map .char) :
    ∃ rest, text = '\x7b' :: '"' :: rest := by
  obtain ⟨t, ht⟩ : ∃ t, compact repr (.dict (e :: entries)) = .char '\x7b' :: .char '"' :: t :=
    ⟨_, rfl⟩
  rw [ht] at h
  match text with
  | [] => cases h
  | [_] => cases h
  | c :: d :: rest =>
    simp only [List.map_cons, List.cons.injEq, CodePoint.char.injEq] at h
    exact ⟨rest, by rw [h.1, h.2.1]⟩

theorem readLine_line {line : List UInt8} (hline : lineFeed ∉ line)
    (hchunks : ∀ c ∈ chunks, c ≠ []) (hflatten : chunks.flatten = line ++ [lineFeed])
    (hlength : chunks.flatten.length ≤ maxMessageBytes) :
    Supervisor.readLine chunks = some line := by
  have hreceived : Supervisor.received [] chunks = some ([] ++ chunks.flatten) :=
    received_flatten hchunks (by simpa using hlength) (hflatten ▸ lastBreak_line hline)
  rw [List.nil_append, hflatten] at hreceived
  rw [Supervisor.readLine, hreceived]
  simp [List.count_eq_zero_of_not_mem hline]

/-- What was cut off ends no line. -/
theorem readLine_cut {line : List UInt8} (hline : lineFeed ∉ line)
    (hchunks : ∀ c ∈ chunks, c ≠ []) (hflatten : chunks.flatten = line)
    (hlength : line.length ≤ maxMessageBytes) : Supervisor.readLine chunks = none := by
  have hreceived : Supervisor.received [] chunks = some ([] ++ chunks.flatten) :=
    received_flatten hchunks (by simpa [hflatten] using hlength)
      (hflatten ▸ lastBreak_free hline)
  rw [List.nil_append, hflatten] at hreceived
  rw [Supervisor.readLine, hreceived]
  simp [List.count_eq_zero_of_not_mem hline]

end Lines

/-! ## The server takes the request of a client -/

section Calls

variable {ep : Endpoint} {method : Method} {id : Text} {i : Identity}

/-- An identity that both sides can name. -/
structure Identity.Named (i : Identity) : Prop where
  board : isBoard i.board = true
  cardId : isCard i.cardId = true
  runId : 0 < i.runId
  workerPid : 1 < i.workerPid

theorem parseIdentity_named (h : i.Named) : parseIdentity (paramFields i) = .ok i := by
  have hboard : Value.get (paramFields i) "board" = some (.str i.board) := rfl
  have hcard : Value.get (paramFields i) "card_id" = some (.str i.cardId) := rfl
  have hrun : Value.get (paramFields i) "run_id" = some (.int i.runId) := rfl
  have hpid : Value.get (paramFields i) "worker_pid" = some (.int i.workerPid) := rfl
  simp [parseIdentity, hboard, hcard, hrun, hpid, h.board, h.cardId, h.runId, h.workerPid, bind,
    Except.bind, pure, Except.pure]

theorem parseRequest_named (h : i.Named) (hid : ep.cfg.isUuid id = true) :
    parseRequest ep.cfg (requestFields method id i) = .ok (method, i) := by
  have hkeys : hasKeys (requestFields method id i) ["v", "id", "method", "params"] = true := rfl
  have hparams : hasKeys (paramFields i) ["board", "card_id", "run_id", "worker_pid"] = true := rfl
  have hgetId : Value.get (requestFields method id i) "id" = some (.str id) := rfl
  have hversion : Supervisor.Request.equalsOne (Value.get (requestFields method id i) "v") = true :=
    rfl
  have hmethod : parseMethod (Value.get (requestFields method id i) "method") = .ok method := by
    cases method <;> rfl
  have hgetParams : Value.get (requestFields method id i) "params" =
      some (.dict (paramFields i)) := rfl
  simp [parseRequest, hkeys, hparams, hgetId, hversion, hmethod, hgetParams, hid,
    parseIdentity_named h, bind, Except.bind, pure, Except.pure]

/-- The identifier of a request, drawn by the client. -/
structure Drawn (ep : Endpoint) (id : Text) : Prop where
  scalar : Python.Json.Scalar id
  short : id.length ≤ 128
  uuid : ep.cfg.isUuid id = true
  named : id ≠ []

theorem requestId_drawn (h : Drawn ep id) : ep.requestId (requestFields method id i) = id := by
  have hid : Value.get (requestFields method id i) "id" = some (.str id) := rfl
  simp only [Endpoint.requestId, hid, if_neg h.named]
  exact List.take_of_length_le h.short

/-- The texts of a class of characters have an encoding. -/
theorem scalar_classed {cls : Char → Bool} {t : Text} (h : t.all (classed cls) = true) :
    Python.Json.Scalar t := by
  intro x hx
  have hclass := List.all_eq_true.mp h x hx
  cases x with
  | char c => exact ⟨c, rfl⟩
  | surrogate n => cases hclass

theorem isBoard_scalar {t : Text} (h : isBoard t = true) : Python.Json.Scalar t := by
  rcases Bool.or_eq_true_iff.mp h with h | h
  · rw [of_decide_eq_true h]
    exact Python.Json.scalar_codePoints _
  · cases t with
    | nil => cases h
    | cons c rest =>
      simp only [Bool.and_eq_true] at h
      obtain ⟨⟨hfirst, -⟩, hrest⟩ := h
      intro x hx
      rcases List.mem_cons.mp hx with rfl | hx
      · cases x with
        | char c => exact ⟨c, rfl⟩
        | surrogate n => cases hfirst
      · exact scalar_classed hrest x hx

theorem isCard_scalar {t : Text} (h : isCard t = true) : Python.Json.Scalar t := by
  simp only [isCard, Bool.and_eq_true] at h
  exact scalar_classed h.2

theorem regular_request (method : Method) (id : Text) (i : Identity) :
    Python.Json.Regular (.dict (requestFields method id i)) := by
  have hnames : ∀ keys : List String, (keys.map codePoints).Nodup ↔ keys.Nodup := fun keys =>
    List.nodup_map_iff Python.codePoints_injective
  refine ⟨(hnames ["v", "id", "method", "params"]).mpr (by decide), trivial, trivial, trivial, ?_,
    trivial⟩
  exact ⟨(hnames ["board", "card_id", "run_id", "worker_pid"]).mpr (by decide), trivial, trivial,
    trivial, trivial, trivial⟩

theorem encodable_request (hi : i.Named) (hid : Drawn ep id) :
    Python.Json.Encodable (.dict (requestFields method id i)) := by
  have hkey := Python.Json.scalar_codePoints
  refine ⟨hkey _, trivial, hkey _, hid.scalar, hkey _, ?_, hkey _, ?_, trivial⟩
  · cases method <;> exact hkey _
  · exact ⟨hkey _, isBoard_scalar hi.board, hkey _, isCard_scalar hi.cardId, hkey _, trivial,
      hkey _, trivial, trivial⟩

/-- The server reads what the client sent. -/
theorem readRequest_sent {repr : Double → Text} {sent : List UInt8} {chunks : List (List UInt8)}
    (hi : i.Named) (hid : Drawn ep id) (hframes : 2 ≤ ep.frames)
    (hsent : encodeLine repr (.dict (requestFields method id i)) = some sent)
    (hlength : sent.length ≤ maxMessageBytes) (hchunks : ∀ c ∈ chunks, c ≠ [])
    (hflatten : chunks.flatten = sent) :
    ep.readRequest (chunks.map .chunk) = .ok (requestFields method id i) := by
  have hregular := regular_request method id i
  have hwritten : Written (.dict (requestFields method id i)) = true := by
    by_contra hnot
    rw [encodeLine, if_neg hnot] at hsent
    cases hsent
  obtain ⟨text, htext, hline, hbreak⟩ := encodeLine_spec repr hregular hwritten
  obtain rfl : encodeUtf8 text ++ [lineFeed] = sent := Option.some.inj (hline.symm.trans hsent)
  have hcollect : collect [] (chunks.map .chunk) = .ok ([] ++ chunks.flatten) :=
    collect_flatten hchunks (by rwa [List.nil_append, hflatten])
      (hflatten ▸ lastBreak_line hbreak)
  rw [List.nil_append, hflatten] at hcollect
  have hdepth : Python.Json.depth (.dict (requestFields method id i)) ≤ ep.frames := by
    simpa [Python.Json.depth, Python.Json.depthEntries, requestFields, paramFields] using hframes
  have hloads := Python.Json.loads_compact repr hregular (encodable_request hi hid) hwritten hdepth
  have hutf8 : detectEncoding (encodeUtf8 text) = .utf8 := by
    obtain ⟨rest, rfl⟩ := object_starts htext
    exact detectEncoding_object _
  have hparse : ep.parseLine (encodeUtf8 text) = .ok (requestFields method id i) := by
    simp only [Endpoint.parseLine, hutf8, ep.codecs.utf8, ← htext, hloads]
  simp only [Endpoint.readRequest, hcollect, bind, Except.bind]
  simp [List.count_eq_zero_of_not_mem hbreak, hparse]

end Calls

/-! ## The client takes the answer of the server -/

section Answers

variable {q : Supervisor.Request} {i : Identity} {o : SupervisorObservation}

/-- What the server can say of a worker. -/
structure Observed (i : Identity) (o : SupervisorObservation) : Prop where
  state : o.state ∈ Supervisor.resultStates
  workerPid : o.workerPid = i.workerPid
  processCount : 0 ≤ o.processCount ∧
    (Supervisor.Request.needsProcess o.state = true → 1 ≤ o.processCount)
  signal : o.state ≠ .terminated → o.signal = none ∧ o.sigkill = false
  signalText : ∀ s, o.signal = some s → Python.Json.Scalar s
  errorCode : o.errorCode = none

theorem observed_exited (process : Option ProcessIdentity) (observedAt : Nat) :
    Observed i (exited i process observedAt) where
  state := by simp [exited, Supervisor.resultStates]
  workerPid := rfl
  processCount := ⟨le_rfl, nofun⟩
  signal _ := ⟨rfl, rfl⟩
  signalText := nofun
  errorCode := rfl

theorem terminate_observed (cfg : Config) (root : Option ProcessIdentity)
    (attemptProcesses : List ProcessIdentity) :
    (terminate cfg i root attemptProcesses).Answers (Observed i) := by
  refine Prog.Answers.bind fun processes => ?_
  split
  · exact Prog.Answers.bind fun observedAt => observed_exited root observedAt
  · next hnonempty =>
    refine Prog.Answers.bind fun _ => Prog.Answers.bind fun _ => Prog.Answers.bind fun left =>
      Prog.Answers.bind fun left => ?_
    split
    · trivial
    · refine Prog.Answers.bind fun observedAt => ?_
      have hpos : 1 ≤ processes.length := List.length_pos_iff.mpr hnonempty
      have hcount : (1 : Int) ≤ (processes.length : Int) := Int.ofNat_le.mpr hpos
      exact {
        state := by simp [Supervisor.resultStates]
        workerPid := rfl
        processCount := ⟨Int.natCast_nonneg _, fun _ => hcount⟩
        signal := fun h => absurd rfl h
        signalText := by
          rintro s hs
          cases hs
          exact Python.Json.scalar_codePoints _
        errorCode := rfl }

/-- What a handled request returns is about its worker. -/
theorem handleRequest_observed {cfg : Config} {request : List (Text × Value)} {method : Method}
    (h : parseRequest cfg request = .ok (method, i)) :
    (handleRequest cfg request).Answers (Observed i) := by
  unfold handleRequest
  rw [h]
  refine Prog.Answers.bind fun process => Prog.Answers.bind fun attemptProcesses =>
    Prog.Answers.bind fun observedAt => ?_
  split
  · exact observed_exited process observedAt
  · next hnonempty =>
    have hpos : 1 ≤ attemptProcesses.length := List.length_pos_iff.mpr hnonempty
    have hcount : (1 : Int) ≤ (attemptProcesses.length : Int) := Int.ofNat_le.mpr hpos
    cases method with
    | probe =>
      exact {
        state := by simp [Supervisor.resultStates]
        workerPid := rfl
        processCount := ⟨Int.natCast_nonneg _, fun _ => hcount⟩
        signal := fun _ => ⟨rfl, rfl⟩
        signalText := nofun
        errorCode := rfl }
    | terminate => exact terminate_observed cfg process attemptProcesses

/-- The fields of a result, as `get` finds them. -/
theorem get_resultFields (o : SupervisorObservation) :
    Value.get (resultFields o) "state" = some (.str o.state.text) ∧
    Value.get (resultFields o) "observed_at" = some (.int o.observedAt) ∧
    Value.get (resultFields o) "worker_pid" = some (.int o.workerPid) ∧
    Value.get (resultFields o) "process_start_ticks" =
      some ((o.processStartTicks.map .int).getD .none) ∧
    Value.get (resultFields o) "process_count" = some (.int o.processCount) := by
  unfold resultFields
  split <;> exact ⟨rfl, rfl, rfl, rfl, rfl⟩

/-- Only a termination has a signal. -/
theorem signal_resultFields (h : Observed i o) :
    q.signalOf (Value.get (resultFields o) "signal") = o.signal ∧
      ((Value.get (resultFields o) "sigkill").map Value.truthy).getD false = o.sigkill := by
  unfold resultFields
  split
  · refine ⟨?_, rfl⟩
    have hget : ∀ rest : List (Text × Value), Value.get (
        [(codePoints "state", Value.str o.state.text),
        (codePoints "observed_at", .int o.observedAt),
        (codePoints "worker_pid", .int o.workerPid),
        (codePoints "process_start_ticks", (o.processStartTicks.map Value.int).getD .none)] ++
        [(codePoints "signal", (o.signal.map Value.str).getD .none),
          (codePoints "sigkill", .bool o.sigkill)] ++ rest) "signal" =
        some ((o.signal.map .str).getD .none) := fun _ => rfl
    rw [hget]
    cases o.signal <;> rfl
  · next hstate =>
    obtain ⟨hsignal, hsigkill⟩ := h.signal hstate
    rw [hsignal, hsigkill]
    exact ⟨rfl, rfl⟩

theorem ticksOf_result (ticks : Option Int) :
    q.ticksOf (some ((ticks.map .int).getD .none)) = .ok ticks := by
  cases ticks <;> rfl

/-- The client reads the result that the server wrote, unless the clock of the server had none. -/
theorem readResult_observed (h : Observed i o) (hpid : q.workerPid = i.workerPid) :
    q.readResult (resultFields o) = if 0 < o.observedAt then .ok o else .error .caught := by
  obtain ⟨hstate, hobserved, hworker, hticks, hcount⟩ := get_resultFields o
  obtain ⟨hsignal, hsigkill⟩ := signal_resultFields (q := q) h
  have hnamed := Supervisor.Request.stateOf_some.mpr ⟨h.state, hstate⟩
  have hreads : ∀ n : Int, q.Reads (some (.int n)) n := fun n => ⟨_, rfl, rfl⟩
  have hsame : o.workerPid = q.workerPid := h.workerPid.trans hpid.symm
  split
  · next hpositive =>
    have haccepted : q.Accepted o.state (resultFields o) o.observedAt o.processCount := {
      observedAt := ⟨hobserved ▸ hreads _, hpositive⟩
      workerPid := by
        rw [hworker, hsame]
        exact hreads _
      processCount := by
        rw [hcount, Supervisor.Request.orZero_int]
        exact ⟨hreads _, h.processCount⟩ }
    rw [Supervisor.Request.readResult_of hnamed haccepted, hticks, ticksOf_result, hsignal,
      hsigkill, ← hsame]
    have herror := h.errorCode
    cases o
    cases herror
    rfl
  · next hpositive =>
    have hread : ∀ n : Int, q.intOf (some (.int n)) = .ok n := fun n => rfl
    simp only [Supervisor.Request.readResult, hnamed, hobserved, hworker, hcount,
      Supervisor.Request.orZero_int, hread, bind, Except.bind]
    rw [if_pos (.inl (not_lt.mp hpositive))]
    rfl

/-! ## The bytes of an answer -/

theorem regular_response (id : Text) (ok : Bool) {field : String} {v : Value}
    (hfield : field = "result" ∨ field = "error") (hv : Python.Json.Regular v) :
    Python.Json.Regular (.dict (responseFields id ok field v)) := by
  refine ⟨?_, trivial, trivial, trivial, hv, trivial⟩
  have hnames : ["v", "id", "ok", field].Nodup := by
    rcases hfield with rfl | rfl <;> decide
  exact (List.nodup_map_iff Python.codePoints_injective).mpr hnames

theorem encodable_response {id : Text} (ok : Bool) (field : String) {v : Value}
    (hid : Python.Json.Scalar id) (hv : Python.Json.Encodable v) :
    Python.Json.Encodable (.dict (responseFields id ok field v)) := by
  have hkey := Python.Json.scalar_codePoints
  exact ⟨hkey _, trivial, hkey _, hid, hkey _, trivial, hkey _, hv, trivial⟩

theorem regular_result (o : SupervisorObservation) :
    Python.Json.Regular (.dict (resultFields o)) := by
  have hnames : ∀ keys : List String, keys.Nodup → (keys.map codePoints).Nodup := fun keys =>
    (List.nodup_map_iff Python.codePoints_injective).mpr
  have hticks : Python.Json.Regular ((o.processStartTicks.map .int).getD .none) := by
    cases o.processStartTicks <;> trivial
  have hsignal : Python.Json.Regular ((o.signal.map .str).getD .none) := by
    cases o.signal <;> trivial
  unfold resultFields
  split
  · exact ⟨hnames ["state", "observed_at", "worker_pid", "process_start_ticks", "signal",
      "sigkill", "process_count"] (by decide), trivial, trivial, trivial, hticks, hsignal, trivial,
      trivial, trivial⟩
  · exact ⟨hnames ["state", "observed_at", "worker_pid", "process_start_ticks", "process_count"]
      (by decide), trivial, trivial, trivial, hticks, trivial, trivial⟩

theorem encodable_result (h : Observed i o) : Python.Json.Encodable (.dict (resultFields o)) := by
  have hkey := Python.Json.scalar_codePoints
  have hticks : Python.Json.Encodable ((o.processStartTicks.map .int).getD .none) := by
    cases o.processStartTicks <;> trivial
  have hstate : Python.Json.Scalar o.state.text := by
    cases o.state <;> exact hkey _
  have hsignal : Python.Json.Encodable ((o.signal.map .str).getD .none) := by
    cases hs : o.signal with
    | none => trivial
    | some s => exact h.signalText s hs
  unfold resultFields
  split
  · exact ⟨hkey _, hstate, hkey _, trivial, hkey _, trivial, hkey _, hticks, hkey _, hsignal,
      hkey _, trivial, hkey _, trivial, trivial⟩
  · exact ⟨hkey _, hstate, hkey _, trivial, hkey _, trivial, hkey _, hticks, hkey _, trivial,
      trivial⟩

theorem depth_result (o : SupervisorObservation) :
    Python.Json.depth (.dict (resultFields o)) = 1 := by
  have hticks : Python.Json.depth ((o.processStartTicks.map .int).getD .none) = 0 := by
    cases o.processStartTicks <;> rfl
  have hsignal : Python.Json.depth ((o.signal.map .str).getD .none) = 0 := by
    cases o.signal <;> rfl
  unfold resultFields
  split <;> simp [Python.Json.depth, Python.Json.depthEntries, hticks, hsignal]

/-- What the client makes of the line of a response, or of the first bytes of it. -/
theorem receive_response {repr : Double → Text} {entries : List (Text × Value)}
    {line : List UInt8} {chunks : List (List UInt8)}
    (hregular : Python.Json.Regular (.dict entries))
    (hencodable : Python.Json.Encodable (.dict entries))
    (hframes : Python.Json.depth (.dict entries) ≤ q.frames)
    (hline : encodeLine repr (.dict entries) = some line) (hchunks : ∀ c ∈ chunks, c ≠ [])
    (hflatten : chunks.flatten = line.take maxMessageBytes) :
    q.receive chunks =
      if (line.take maxMessageBytes).getLast? ≠ some lineFeed then
        .ok (q.unavailable (codePoints "supervisor_unavailable"))
      else match q.readResponse (.dict entries) with
        | .ok o => .ok o
        | .error .caught => .ok (q.unavailable (codePoints "invalid_supervisor_response"))
        | .error .overflow => .error .overflow := by
  have hwritten : Written (.dict entries) = true := by
    by_contra hnot
    rw [encodeLine, if_neg hnot] at hline
    cases hline
  obtain ⟨text, htext, htextLine, hbreak⟩ := encodeLine_spec repr hregular hwritten
  obtain rfl : encodeUtf8 text ++ [lineFeed] = line := Option.some.inj (htextLine.symm.trans hline)
  by_cases hfits : (encodeUtf8 text ++ [lineFeed]).length ≤ maxMessageBytes
  · rw [List.take_of_length_le hfits] at hflatten ⊢
    have hread := readLine_line hbreak hchunks hflatten (hflatten ▸ hfits)
    have hloads := Python.Json.loads_compact repr hregular hencodable hwritten hframes
    rw [if_neg (by simp)]
    simp only [Supervisor.Request.receive, hread, decodeUtf8_encodeUtf8, ← htext, hloads] <;> rfl
  · have hcut : (encodeUtf8 text ++ [lineFeed]).take maxMessageBytes =
        (encodeUtf8 text).take maxMessageBytes := by
      rw [List.length_append, List.length_singleton] at hfits
      exact List.take_append_of_le_length (by omega)
    have hfree : lineFeed ∉ (encodeUtf8 text).take maxMessageBytes := fun h =>
      hbreak (List.mem_of_mem_take h)
    rw [hcut] at hflatten ⊢
    have hread := readLine_cut hfree hchunks hflatten (List.length_take_le _ _)
    rw [if_pos fun h => hfree (List.mem_of_getLast? h)]
    simp only [Supervisor.Request.receive, hread]

/-- The line that answers a request says what there is to say. -/
theorem receive_answer {ep : Endpoint} {r : Except Error SupervisorObservation}
    {bytes : List UInt8} {chunks : List (List UInt8)} (hid : Python.Json.Scalar q.id)
    (hframes : 2 ≤ q.frames) (hpid : q.workerPid = i.workerPid)
    (hr : ∀ o, r = .ok o → Observed i o) (hanswer : ep.answer q.id r = some bytes)
    (hchunks : ∀ c ∈ chunks, c ≠ []) (hflatten : chunks.flatten = bytes) :
    q.receive chunks = .ok (reported q bytes r) := by
  cases r with
  | ok o =>
    obtain ⟨line, hline, rfl⟩ := Option.map_eq_some_iff.mp hanswer
    have hobserved := hr o rfl
    have hdepth : Python.Json.depth (.dict (responseFields q.id true "result"
        (.dict (resultFields o)))) ≤ q.frames := by
      have hresult := depth_result o
      simp only [Python.Json.depth, responseFields, Python.Json.depthEntries] at hresult ⊢
      omega
    rw [receive_response (regular_response q.id true (.inl rfl) (regular_result o))
      (encodable_response true "result" hid (encodable_result hobserved)) hdepth hline hchunks
      hflatten, reported]
    split
    · rfl
    · have haddressed : q.Addressed (.dict (responseFields q.id true "result"
          (.dict (resultFields o)))) o.state (resultFields o) :=
        ⟨_, rfl, rfl, rfl, rfl, rfl, hobserved.state, (get_resultFields o).1⟩
      rw [(Supervisor.Request.readResponse_addressed haddressed).1,
        readResult_observed hobserved hpid]
      by_cases hpositive : 0 < o.observedAt
      · simp only [if_pos hpositive]
      · simp only [if_neg hpositive]
  | error e =>
    obtain ⟨line, hline, rfl⟩ := Option.map_eq_some_iff.mp hanswer
    have hkey := Python.Json.scalar_codePoints
    have hdepth : Python.Json.depth (.dict (responseFields q.id false "error"
        (.dict [(codePoints "code", .str (codePoints (Refusal.ofError e).code))]))) ≤ q.frames :=
      hframes
    have hregular : Python.Json.Regular
        (.dict [(codePoints "code", .str (codePoints (Refusal.ofError e).code))]) :=
      ⟨List.nodup_singleton _, trivial, trivial⟩
    have hencodable : Python.Json.Encodable
        (.dict [(codePoints "code", .str (codePoints (Refusal.ofError e).code))]) :=
      ⟨hkey _, hkey _, trivial⟩
    rw [receive_response (regular_response q.id false (.inr rfl) hregular)
      (encodable_response false "error" hid hencodable) hdepth hline hchunks hflatten, reported]
    split
    · rfl
    · have hread : ∀ code : Text, q.readResponse (.dict (responseFields q.id false "error"
          (.dict [(codePoints "code", .str code)]))) =
          .ok (q.unavailable (if code = [] then codePoints "supervisor_rejected" else code)) := by
        intro code
        have hversion : Supervisor.Request.equalsOne (Value.get (responseFields q.id false "error"
            (.dict [(codePoints "code", .str code)])) "v") = true := rfl
        have hnamed : Supervisor.Request.isText q.id (Value.get (responseFields q.id false "error"
            (.dict [(codePoints "code", .str code)])) "id") = true :=
          Supervisor.Request.isText_iff.mpr rfl
        simp only [Supervisor.Request.readResponse, hversion, hnamed]
        rfl
      rw [hread]

end Answers

/-! ## Calls -/

/-- What a client sent is handled as it was sent, in whatever chunks it comes. -/
theorem serveConnection_sent {ep : Endpoint} {method : Method} {id : Text} {i : Identity}
    (hi : i.Named) (hid : Drawn ep id) (hframes : 2 ≤ ep.frames) {repr : Double → Text}
    {sent : List UInt8}
    (hsent : encodeLine repr (.dict (requestFields method id i)) = some sent)
    (hlength : sent.length ≤ maxMessageBytes) {chunks : List (List UInt8)}
    (hchunks : ∀ c ∈ chunks, c ≠ []) (hflatten : chunks.flatten = sent) :
    ep.serveConnection ep.cfg.expectedUid ep.expectedGid (chunks.map .chunk) =
      (handleRequest ep.cfg (requestFields method id i)).attempt.bind fun r =>
        pure (ep.answer id r) := by
  have hread := readRequest_sent hi hid hframes hsent hlength hchunks hflatten
  rw [Endpoint.serveConnection, if_neg (by simp), hread]
  simp only [requestId_drawn hid, Prog.bind_def]

/-- **A call says what the server found out**: however the bytes of the request and of the answer
come in chunks, and whatever the processes and the operations of the server do meanwhile, the
request is handled as it was sent, and what the client returns is what the handler returned or
raised. -/
theorem call_reports (ep : Endpoint) (q : Supervisor.Request) (E : Setting Op Error State)
    (method : Method) {i : Identity} (hi : i.Named) (hid : Drawn ep q.id)
    (hpid : q.workerPid = i.workerPid) (hframes : 2 ≤ ep.frames ∧ 2 ≤ q.frames)
    {repr : Double → Text} {sent : List UInt8}
    (hsent : encodeLine repr (.dict (requestFields method q.id i)) = some sent)
    (hlength : sent.length ≤ maxMessageBytes)
    {requested answered : List (List UInt8)} (hrequested : ∀ c ∈ requested, c ≠ [])
    (hrequest : requested.flatten = sent) {s s' : State} {bytes : List UInt8}
    (hrun : Runs machine E
      (ep.serveConnection ep.cfg.expectedUid ep.expectedGid (requested.map .chunk)) s
      (.returned (some bytes)) s')
    (hanswered : ∀ c ∈ answered, c ≠ []) (hanswer : answered.flatten = bytes) :
    ∃ r, Runs machine E (handleRequest ep.cfg (requestFields method q.id i)).attempt s
        (.returned r) s' ∧
      q.receive answered = .ok (reported q bytes r) := by
  rw [serveConnection_sent hi hid hframes.1 hsent hlength hrequested hrequest] at hrun
  obtain ⟨r, s₁, hhandled, hrest⟩ := hrun.bound
  generalize hout : Outcome.returned (some bytes) = out at hrest
  cases hrest
  have hbytes := Outcome.returned.inj hout
  have hobserved : ∀ o, r = .ok o → Observed i o :=
    hhandled.answers (handleRequest_observed (parseRequest_named hi hid.uuid)).attempt
  exact ⟨r, hhandled, receive_answer hid.scalar hframes.2 hpid hobserved hbytes.symm hanswered
    hanswer⟩

def sampleEndpoint : Endpoint where
  cfg := sampleConfig
  expectedGid := 1000
  codecs :=
    { decode := fun e bytes => if e = .utf8 then Supervisor.decodeUtf8 bytes else none
      utf8 := decodeUtf8_encodeUtf8 }
  frames := 1000
  str _ := []
  repr _ := []

def sampleClient : Supervisor.Request where
  decimals := asciiDecimals
  frames := 1000
  str _ := []
  id := codePoints "0a"
  workerPid := 100
  now := 7

def sampleSent : List UInt8 :=
  ("\x7b\"v\":1,\"id\":\"0a\",\"method\":\"probe\",\"params\":\x7b\"board\":\"default\"," ++
    "\"card_id\":\"t\",\"run_id\":4,\"worker_pid\":100\x7d\x7d\n").toUTF8.toList

def sampleReturned : List UInt8 :=
  ("\x7b\"v\":1,\"id\":\"0a\",\"ok\":true,\"result\":\x7b\"state\":\"running\"," ++
    "\"observed_at\":5,\"worker_pid\":100,\"process_start_ticks\":7," ++
    "\"process_count\":1\x7d\x7d\n").toUTF8.toList

/-- The client is told that the worker runs. -/
def tellsRunning : Durable.Outcome Error (Except Error SupervisorObservation) → Bool
  | .returned r => (reported sampleClient sampleReturned r).state == .running
  | _ => false

/-- The request in two chunks, and the answer in one. -/
theorem sampleSent_reported :
    ∃ r, sampleClient.receive [sampleReturned] =
        .ok (reported sampleClient sampleReturned r) ∧
      (sampleClient.receive [sampleReturned]).map (·.state) = .ok .running := by
  let serving := { sampleState with now := 5000 }
  let handled := (handleRequest sampleConfig
    (requestFields .probe sampleClient.id sampleIdentity)).attempt
  have hsample : (isBoard sampleIdentity.board = true ∧ isCard sampleIdentity.cardId = true) ∧
      (encodeLine (fun _ => [])
          (.dict (requestFields .probe sampleClient.id sampleIdentity)) = some sampleSent ∧
        sampleSent.length ≤ maxMessageBytes ∧
        (∀ c ∈ [sampleSent.take 9, sampleSent.drop 9], c ≠ [])) ∧
      (machine.eval (handled.bind fun r => pure (sampleEndpoint.answer sampleClient.id r))
          serving).1 = .returned (some sampleReturned) ∧
        (∀ c ∈ [sampleReturned], c ≠ []) ∧
        tellsRunning (machine.eval handled serving).1 = true := by
    decide +kernel
  obtain ⟨⟨hboard, hcard⟩, ⟨hsent, hlength, hchunks⟩, hreturned, hanswered, htold⟩ := hsample
  have hnamed : sampleIdentity.Named := ⟨hboard, hcard, by decide, by decide⟩
  have hdrawn : Drawn sampleEndpoint sampleClient.id :=
    ⟨Python.Json.scalar_codePoints _, by decide, rfl, by decide⟩
  have hcut : [sampleSent.take 9, sampleSent.drop 9].flatten = sampleSent := by simp
  have hrun := eval_runs (M := machine) (E := .quiet Op Error State) (fun _ => rfl)
    (fun _ _ => rfl) (sampleEndpoint.serveConnection 1000 1000
      ([sampleSent.take 9, sampleSent.drop 9].map .chunk)) serving
  have hserved := serveConnection_sent hnamed hdrawn (by decide) hsent hlength hchunks hcut
  have hfound : (machine.eval (sampleEndpoint.serveConnection 1000 1000
      ([sampleSent.take 9, sampleSent.drop 9].map .chunk)) serving).1 =
      .returned (some sampleReturned) := by
    rw [← hreturned]
    exact congrArg (fun p => (machine.eval p serving).1) hserved
  rw [hfound] at hrun
  have hanswer : [sampleReturned].flatten = sampleReturned := List.flatten_singleton
  obtain ⟨r, hhandled, hreported⟩ := call_reports sampleEndpoint sampleClient
    (.quiet Op Error State) .probe hnamed hdrawn rfl (by decide) hsent hlength hchunks hcut hrun
    hanswered hanswer
  refine ⟨r, hreported, ?_⟩
  have hhanded : (machine.eval handled serving).1 = .returned r :=
    congrArg Prod.fst (runs_quiet hhandled)
  have htells : tellsRunning (.returned r) = true := by rw [← hhanded, htold]
  rw [hreported]
  exact congrArg Except.ok (beq_iff_eq.mp htells)

end HollysysController.WorkerSupervisor
