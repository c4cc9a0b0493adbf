/-
The body that the runner's middleware replays to the application
(`_read_bounded_body` and `replay_receive` of soj_runner/runner_http_security.py).

The middleware reads the whole body, and the application then reads it from
`replay_receive`.  A client that disconnects ends the reading too: what has
arrived is replayed as a message without `more_body`, which the application
takes for a whole body, and the disconnect that was kept for it is only sent
after that.

* `readBoundedBody_finished`, `readBoundedBody_cut` — the two ways in which a
  body is read;
* `replays_finished_iff` — what is replayed was finished by the client unless
  the client disconnected within the limit.
-/
import ShellgeiOnlineJudge.RunnerHttpSecurity

namespace RunnerHttpSecurity

/-! ### `replay_receive` -/

/-- What `replay_receive` closes over: the body, the message that cut it off,
what the client still sends, and `body_replayed`. -/
structure Replay where
  body : Bytes
  terminal : Option Message
  rest : List Message
  bodyReplayed : Bool

/-- `replay_receive`; `none` while it waits for the client. -/
def Replay.receive (replay : Replay) : Option (Message × Replay) :=
  if !replay.bodyReplayed then
    some (.request replay.body false, { replay with bodyReplayed := true })
  else match replay.terminal with
    | some message => some (message, replay)
    | none =>
      match replay.rest with
      | [] => none
      | message :: rest => some (message, { replay with rest })

/-- What the application has received after `n` calls. -/
def Replay.received (replay : Replay) : ℕ → List Message
  | 0 => []
  | n + 1 =>
    match replay.receive with
    | none => []
    | some (message, replay) => message :: replay.received n

/-- The first message is the buffered body. -/
theorem receive_fresh (body : Bytes) (terminal : Option Message) (rest : List Message) :
    (Replay.mk body terminal rest false).receive.map Prod.fst = some (.request body false) :=
  rfl

/-- The replay with which the middleware calls the application; `none` when the
application is not called, or without a replay. -/
def Middleware.forwards (m : Middleware) (scope : Scope) (messages : List Message) :
    Option Replay :=
  if scope.type ≠ .http ∨ scope.path ≠ runnerExecutePath then none
  else if authenticated m.environment scope ≠ some true then none
  else match declaredContentLength scope with
    | .error () => none
    | .ok declaredLength =>
      if declaredLength.any (· > (runnerRequestBodyLimitBytes : ℤ)) then none
      else match readBoundedBody [] messages with
        | .waiting => none
        | .tooLarge => none
        | .body body terminal rest => some ⟨body, terminal, rest, false⟩

/-- The application runs on the messages of the replay. -/
theorem call_of_forwards {m : Middleware} {scope : Scope} {messages : List Message}
    {replay : Replay} (h : m.forwards scope messages = some replay) :
    m.call scope messages =
      some { m.application.exchange scope
          (replayed replay.body replay.terminal replay.rest) with
        consumed := boundedBodyMessages [] messages ++ fromClient replay.terminal
          (m.application.consumed scope
            (replayed replay.body replay.terminal replay.rest)) } := by
  rw [Middleware.forwards] at h
  -- nothing is replayed on the other ways through the middleware
  by_cases hknown : scope.type ≠ .http ∨ scope.path ≠ runnerExecutePath
  · rw [if_pos hknown] at h
    cases h
  · rw [if_neg hknown] at h
    by_cases hauth : authenticated m.environment scope ≠ some true
    · rw [if_pos hauth] at h
      cases h
    · rw [if_neg hauth] at h
      rw [not_not] at hauth
      rw [Middleware.call, if_neg hknown, hauth]
      cases hlength : declaredContentLength scope with
      | error u =>
        rw [hlength] at h
        cases h
      | ok declaredLength =>
        simp only [hlength] at h
        by_cases hlarge : declaredLength.any (· > (runnerRequestBodyLimitBytes : ℤ)) = true
        · rw [if_pos hlarge] at h
          cases h
        · rw [if_neg hlarge] at h
          cases hread : readBoundedBody [] messages with
          | waiting =>
            rw [hread] at h
            cases h
          | tooLarge =>
            rw [hread] at h
            cases h
          | body body terminal rest =>
            rw [hread] at h
            obtain rfl := Option.some.inj h
            simp [hlarge, Application.exchange]

/-- The execute handler is invoked with the body of the replay, if the application
accepts it. -/
theorem delivered_of_forwards {m : Middleware} {scope : Scope} {messages rest : List Message}
    {body : Bytes} {terminal : Option Message}
    (h : m.forwards scope messages = some ⟨body, terminal, rest, false⟩)
    (hrouted : routed scope = true) (haccepts : m.application.accepts scope body = true) :
    (m.call scope messages).map Exchange.delivered = some (some body) := by
  have hbody := requestBody_replayed body terminal rest
  rw [call_of_forwards h, Option.map_some]
  exact congrArg some (m.application.delivered_of_routed hrouted hbody haccepts)

/-- What a replay sends: the body once, then the rest of the client's messages. -/
theorem received_of_finished (body : Bytes) (rest : List Message) (n : ℕ) :
    (Replay.mk body none rest false).received (n + 1) = .request body false :: rest.take n := by
  have hrest : ∀ rest, (Replay.mk body none rest true).received n = rest.take n := by
    induction n with
    | zero => intro rest; rfl
    | succ n ih =>
      intro rest
      cases rest with
      | nil => rfl
      | cons message rest =>
        show message :: (Replay.mk body none rest true).received n = _
        rw [ih, List.take_succ_cons]
  show .request body false :: (Replay.mk body none rest true).received n = _
  rw [hrest]

/-! ### Bodies that are finished, and bodies that are cut -/

/-- The client has sent `body` to its end. -/
def Finished (messages : List Message) (body : Bytes) (rest : List Message) : Prop :=
  ∃ (chunks : List Bytes) (last : Bytes),
    messages = chunks.map (Message.request · true) ++ .request last false :: rest ∧
    body = chunks.flatten ++ last

/-- The client has disconnected after `body`, which it has not finished. -/
def Cut (messages : List Message) (body : Bytes) (rest : List Message) : Prop :=
  ∃ chunks : List Bytes, messages = chunks.map (Message.request · true) ++ .disconnect :: rest ∧
    body = chunks.flatten

/-- A body is not both. -/
theorem Cut.not_finished {messages rest rest' : List Message} {body body' : Bytes}
    (hcut : Cut messages body rest) : ¬ Finished messages body' rest' := by
  obtain ⟨chunks, hmessages, -⟩ := hcut
  rintro ⟨chunks', last, hmessages', -⟩
  rw [hmessages] at hmessages'
  clear hmessages
  -- both lists start with the chunks, up to the first message that ends them
  induction chunks generalizing chunks' with
  | nil =>
    cases chunks' with
    | nil => cases hmessages'
    | cons chunk' chunks' => cases hmessages'
  | cons chunk chunks ih =>
    cases chunks' with
    | nil => simp at hmessages'
    | cons chunk' chunks' => exact ih chunks' (List.cons.inj hmessages').2

/-- Reading a body: the client finished it, or it was cut. -/
theorem readBoundedBody_finished {messages rest : List Message} {body body' : Bytes}
    {terminal : Option Message} (h : readBoundedBody body messages = .body body' terminal rest) :
    (terminal = none ∧ ∃ read, Finished messages read rest ∧ body' = body ++ read) ∨
      (terminal = some .disconnect ∧ ∃ read, Cut messages read rest ∧ body' = body ++ read) := by
  induction messages generalizing body with
  | nil => cases h
  | cons message messages ih =>
    cases message with
    | disconnect =>
      cases h
      exact Or.inr ⟨rfl, [], ⟨[], rfl, rfl⟩, (List.append_nil _).symm⟩
    | request chunk moreBody =>
      rw [readBoundedBody] at h
      split at h
      · cases h
      · cases moreBody with
        | false =>
          cases h
          exact Or.inl ⟨rfl, chunk, ⟨[], chunk, rfl, rfl⟩, rfl⟩
        | true =>
          rw [if_pos rfl] at h
          -- the rest of the body is read with this chunk before it
          rcases ih h with ⟨hterminal, read, ⟨chunks, last, hmessages, hread⟩, hbody⟩ |
            ⟨hterminal, read, ⟨chunks, hmessages, hread⟩, hbody⟩
          · refine Or.inl ⟨hterminal, chunk ++ read, ⟨chunk :: chunks, last, ?_, ?_⟩, ?_⟩
            · rw [hmessages]
              rfl
            · rw [hread, List.flatten_cons, List.append_assoc]
            · rw [hbody, List.append_assoc]
          · refine Or.inr ⟨hterminal, chunk ++ read, ⟨chunk :: chunks, ?_, ?_⟩, ?_⟩
            · rw [hmessages]
              rfl
            · rw [hread, List.flatten_cons]
            · rw [hbody, List.append_assoc]

/-- A body within the limit that is cut is read up to there. -/
theorem readBoundedBody_cut {messages rest : List Message} {body read : Bytes}
    (hcut : Cut messages read rest)
    (hle : (body ++ read).length ≤ runnerRequestBodyLimitBytes) :
    readBoundedBody body messages = .body (body ++ read) (some .disconnect) rest := by
  obtain ⟨chunks, rfl, rfl⟩ := hcut
  induction chunks generalizing body with
  | nil =>
    rw [List.flatten_nil, List.append_nil]
    rfl
  | cons chunk chunks ih =>
    rw [List.flatten_cons, ← List.append_assoc] at hle ⊢
    have hsmall : ¬ (body ++ chunk).length > runnerRequestBodyLimitBytes := by
      rw [List.length_append] at hle
      omega
    rw [List.map_cons, List.cons_append, readBoundedBody, if_neg hsmall, if_pos rfl]
    exact ih hle

/-! ### The law of the replay -/

/-- When the application receives a body without `more_body` from the replay, the
client has finished this body, and it is received once, before what the client
sends after it. -/
def ReplaysFinished (m : Middleware) (scope : Scope) (messages : List Message) : Prop :=
  ∀ replay, m.forwards scope messages = some replay →
    ∀ body, replay.receive.map Prod.fst = some (.request body false) →
      ∃ rest, Finished messages body rest ∧
        ∀ n, replay.received (n + 1) = .request body false :: rest.take n

/-- The declared length of the body lets the middleware read it. -/
def LengthAccepted (scope : Scope) : Prop :=
  ∃ declaredLength, declaredContentLength scope = .ok declaredLength ∧
    ¬ declaredLength.any (· > (runnerRequestBodyLimitBytes : ℤ)) = true

theorem forwards_of_authorized {m : Middleware} {scope : Scope} {messages : List Message}
    (htype : scope.type = .http) (hpath : scope.path = runnerExecutePath)
    (hauth : Authorized m.environment scope) (hlength : LengthAccepted scope) {body : Bytes}
    {terminal : Option Message} {rest : List Message}
    (hread : readBoundedBody [] messages = .body body terminal rest) :
    m.forwards scope messages = some ⟨body, terminal, rest, false⟩ := by
  obtain ⟨declaredLength, hdeclared, hsmall⟩ := hlength
  have hknown : ¬ (scope.type ≠ .http ∨ scope.path ≠ runnerExecutePath) := by simp [htype, hpath]
  have hok : ¬ authenticated m.environment scope ≠ some true :=
    not_not.mpr (authenticated_eq_some_true.mpr hauth)
  simp only [Middleware.forwards, if_neg hknown, if_neg hok, hdeclared, if_neg hsmall, hread]

theorem exists_read_of_forwards {m : Middleware} {scope : Scope} {messages : List Message}
    {replay : Replay} (h : m.forwards scope messages = some replay) :
    LengthAccepted scope ∧ replay.bodyReplayed = false ∧
      readBoundedBody [] messages = .body replay.body replay.terminal replay.rest := by
  rw [Middleware.forwards] at h
  split at h
  · cases h
  split at h
  · cases h
  split at h
  · cases h
  · next declaredLength hdeclared =>
    split at h
    · cases h
    · next hsmall =>
      split at h
      · cases h
      · cases h
      · next body terminal rest hread =>
        obtain rfl := Option.some.inj h
        exact ⟨⟨declaredLength, hdeclared, hsmall⟩, rfl, hread⟩

/-- **What is replayed was finished by the client** exactly when the client has
not disconnected, within the limit, before the end of the body. -/
theorem replays_finished_iff (m : Middleware) (scope : Scope) (messages : List Message)
    (htype : scope.type = .http) (hpath : scope.path = runnerExecutePath)
    (hauth : Authorized m.environment scope) :
    ReplaysFinished m scope messages ↔
      ¬ (LengthAccepted scope ∧ ∃ body rest, Cut messages body rest ∧
        body.length ≤ runnerRequestBodyLimitBytes) := by
  constructor
  · rintro h ⟨hlength, body, rest, hcut, hle⟩
    -- the body that was cut is replayed as a finished one
    have hread := @readBoundedBody_cut messages rest [] body hcut hle
    have hforwards := forwards_of_authorized htype hpath hauth hlength hread
    obtain ⟨rest', hfinished, -⟩ := h _ hforwards body (receive_fresh _ _ _)
    exact hcut.not_finished hfinished
  · intro h replay hforwards body hreceive
    obtain ⟨hlength, hfresh, hread⟩ := exists_read_of_forwards hforwards
    obtain ⟨body', terminal, rest, bodyReplayed⟩ := replay
    obtain rfl : bodyReplayed = false := hfresh
    obtain rfl : body' = body := by
      simpa [Replay.receive] using hreceive
    rcases readBoundedBody_finished hread with ⟨hterminal, read, hfinished, hbody⟩ |
      ⟨-, read, hcut, hbody⟩
    · obtain rfl : terminal = none := hterminal
      obtain rfl : body' = read := hbody
      exact ⟨rest, hfinished, received_of_finished body' rest⟩
    · obtain rfl : body' = read := hbody
      exact absurd ⟨hlength, body', rest, hcut, readBoundedBody_le hread (Nat.zero_le _)⟩ h

/-- `POST /internal/execute` with the secret and JSON. -/
def authorizedScope : Scope where
  type := .http
  path := runnerExecutePath
  method := "POST"
  headers :=
    [(ascii "authorization", ascii "Bearer aaaaaaaaaaaaaaaaaaaaaaaaaaaaaaaa"), jsonHeader]

theorem authorizedScope_authorized : Authorized exampleMiddleware.environment authorizedScope :=
  authenticated_eq_some_true.mp (by decide +kernel)

theorem replays_finished_iff_exampleBody :
    ReplaysFinished exampleMiddleware authorizedScope [.request exampleBody false] := by
  refine (replays_finished_iff exampleMiddleware authorizedScope [.request exampleBody false] rfl rfl
    authorizedScope_authorized).mpr ?_
  rintro ⟨-, body, rest, hcut, -⟩
  exact hcut.not_finished ⟨[], exampleBody, rfl, rfl⟩

theorem length_ascii (s : String) : (ascii s).length = s.length := by
  rw [ascii, List.length_map, String.length_toList]

theorem exampleBody_length : exampleBody.length ≤ runnerRequestBodyLimitBytes := by
  rw [exampleBody, length_ascii]
  simp only [String.length_append]
  decide +kernel

/-- A request whose client announces more and then disconnects is executed. -/
theorem cut_request_executed :
    (exampleMiddleware.call authorizedScope [.request exampleBody true, .disconnect]).map
        Exchange.delivered = some (some exampleBody) ∧
      ¬ ReplaysFinished exampleMiddleware authorizedScope
        [.request exampleBody true, .disconnect] := by
  have hlength : LengthAccepted authorizedScope :=
    ⟨none, by rfl, by decide⟩
  have hcut : Cut [.request exampleBody true, .disconnect] exampleBody [] :=
    ⟨[exampleBody], rfl, by rw [List.flatten_cons, List.flatten_nil, List.append_nil]⟩
  have hread := @readBoundedBody_cut _ [] [] exampleBody hcut
    (by rw [List.nil_append]; exact exampleBody_length)
  rw [List.nil_append] at hread
  have hforwards := forwards_of_authorized rfl rfl authorizedScope_authorized hlength hread
  constructor
  · have hrouted : routed authorizedScope = true := by decide +kernel
    have hjson : singleHeader authorizedScope (ascii "content-type") =
        some (ascii "application/json") := by decide +kernel
    exact delivered_of_forwards hforwards hrouted (accepts_exampleBody hjson)
  · intro h
    obtain ⟨rest, hfinished, -⟩ := h _ hforwards _ (receive_fresh _ _ _)
    exact hcut.not_finished hfinished

end RunnerHttpSecurity
