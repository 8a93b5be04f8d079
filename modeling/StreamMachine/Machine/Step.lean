import StreamMachine.Machine.Command
import StreamMachine.Machine.Thread

/-! One atomic step of one thread. A step may find itself blocked, on a lock, on a gate or on
another thread; then there is none until some other thread has changed that. -/
namespace StreamMachine

/-- What a step leaves behind. -/
structure Step where
  deed : Deed
  thread : Thread
  spawned : List Thread := []
  seen : List Occurrence := []

namespace Thread

def goto (t : Thread) (frames : List Frame) : Thread := { t with frames := frames, control := .run }

def give (t : Thread) (frames : List Frame) (reply : Reply) : Thread :=
  { t with frames := frames, control := .reply reply }

def fail (t : Thread) (frames : List Frame) (panic : Panic) : Thread :=
  { t with frames := frames, control := .unwind panic }

def enterSpan (t : Thread) (span : Span) : Thread := { t with spans := span :: t.spans }

def setSpans (t : Thread) (spans : List Span) : Thread := { t with spans := spans }

def leaveSpan (t : Thread) : Thread := { t with spans := t.spans.tail }

/-- A notice given on this thread now. -/
def notice (t : Thread) (notice : Notice) : Occurrence := .traced ⟨notice, t.spans.reverse⟩

/-- Starts to unwind; a broken contract is announced first. -/
def raise (t : Thread) (frames : List Frame) (panic : Panic) : Step :=
  let seen := match panic with
    | .violation v => [t.notice (.violated v)]
    | _ => []
  ⟨.nothing, t.fail frames panic, [], seen⟩

end Thread

def Query.answer (i : Instruction) : Query → Except Violation Reply
  | .nameAndStatus => pure (.texts [i.name, i.status.display])
  | .operandKind => do pure (.text (← i.operand).kind.display)
  | .message => pure (.text i.message.debugText)
  | .word => do pure (.payload .u32 (← (← i.operand).expectPayload .u32 i.name))
  | .string => do pure (.payload .string (← (← i.operand).expectPayload .string i.name))
  | .stringSize => do pure (.count (← (← i.operand).expectPayload .string i.name).utf8ByteSize)

def Access.writes : Access → Bool
  | .writeWords _ | .copyFrom _ | .setByte .. => true
  | _ => false

/-- One access to the blob a callback is lent. -/
def Accessor.perform (a : Accessor) (w : World) (blob : Blob) (access : Access) :
    Except Panic (Reply × Blob) :=
  if access.writes && a.mode == .read then
    .error (.raised "internal error: entered unreachable code: read-only OfBlob borrowed mutably")
  else match access with
    | .writeWords words => match blob.writeWords words with
      | .ok blob => .ok (.ok, blob)
      | .error error => .ok (.failed (.blob error), blob)
    | .copyFrom source => match blob.copyFrom source with
      | .ok blob => .ok (.ok, blob)
      | .error error => .ok (.failed (.blob error), blob)
    | .setByte index value => match blob.setByte index value with
      | .ok blob => .ok (.ok, blob)
      | .error fault => .error (.storage fault)
    | .readWords => .ok (.ofBlobResult .words blob.readWords, blob)
    | .bytes => .ok (.bytes blob.bytes, blob)
    | .copyTo size => .ok (.ofBlobResult .bytes (blob.copyTo size), blob)
    | .describe => .ok (.accessor blob.shape blob.dataType blob.byteSize a.category a.device
        w.store.catalog.length, blob)

/-- Sum of the drained counts, or the first panic in the order of the list. -/
def joinOutcomes : List (Except Panic Reply) → Except Panic Nat
  | [] => .ok 0
  | .error panic :: _ => .error panic
  | .ok reply :: rest => (joinOutcomes rest).map (reply.toCount + ·)

namespace Thread

/-- A drain of the stream at position `s`. -/
def stepDrain (w : World) (t : Thread) (s : Nat) (point : DrainPoint) (executed : Nat)
    (outer : List Frame) : Step :=
  let stream := w.streams[s]?
  match point with
  | .enter =>
    if stream.elim true (·.executing) then
      ⟨.nothing, t.give outer (.count executed), [], [.drained s executed]⟩
    else
      ⟨.setExecuting s true, t.goto (.drain s .take executed :: outer), [], []⟩
  | .take | .execute =>
    match stream.elim [] (·.queue) with
    | [] => ⟨.nothing, t.goto (.drain s .leave executed :: outer), [], []⟩
    | m :: _ =>
      let t := t.enterSpan ⟨m.name, w.categoryAt s⟩
      ⟨.pop s,
        t.goto (.run ⟨m, s, .created⟩ [.infer, .compute] :: .drain s .execute executed :: outer),
        [], [.started s m]⟩
  | .leave =>
    ⟨.setExecuting s false, t.goto (.drain s .recheck executed :: outer), [], []⟩
  | .recheck =>
    if stream.elim true (·.queue.isEmpty) then
      ⟨.nothing, t.give outer (.count executed), [], [.drained s executed]⟩
    else ⟨.nothing, t.goto (.drain s .enter executed :: outer), [], []⟩

/-- The phases of an instruction, each in the status it asks for. -/
def stepRun (t : Thread) (i : Instruction) (phases : List Phase) (outer : List Frame) : Step :=
  match phases with
  | [] => ⟨.nothing, t.give outer .ok, [], []⟩
  | phase :: _ =>
    match i.checkStatus phase with
    | .error violation => t.raise outer (.violation violation)
    | .ok () =>
      ⟨.nothing, t.goto (.phase i phase (i.behavior.moves phase) :: .run i phases :: outer),
        [], [.began i.stream phase i.status]⟩

/-- One move of a behavior; `inner` is the phase with the moves behind it. -/
def stepMove (w : World) (t : Thread) (i : Instruction) (move : Move) (inner : List Frame) : Step :=
  match move with
  | .report what query =>
    match query.answer i with
    | .ok reply => ⟨.nothing, t.goto inner, [], [.logged (w.categoryAt i.stream) what reply]⟩
    | .error violation => t.raise inner (.violation violation)
  | .panic message => t.raise inner (.raised message)
  | .drainOwn =>
    ⟨.nothing, t.goto (.drain i.stream .enter 0 :: .logDrain i.stream :: inner), [], []⟩
  | .issue command => ⟨.nothing, t.goto (.command command :: inner), [], []⟩
  | .lendBlob mode bound =>
    match i.operand >>= Operand.expectCallback mode i.name with
    | .error violation => t.raise inner (.violation violation)
    | .ok (handle, actions) =>
      match w.store.binding? handle with
      | none => t.raise inner (.raised s!"no storage behind '{handle.name}'")
      | some storage =>
        let accessor := ⟨storage, mode, w.categoryAt i.stream, w.deviceAt i.stream⟩
        ⟨.nothing, t.goto (.borrow accessor actions :: inner), [],
          [t.notice (.lending mode bound handle.name)]⟩
  | .bindPublished bound =>
    match i.operand >>= Operand.expectLazyReference i.name with
    | .error violation => t.raise inner (.violation violation)
    | .ok (handle, lazyName) =>
      match w.store.published? lazyName with
      | none => t.raise inner (.violation (.unpublished i.name lazyName))
      | some storage =>
        ⟨.rebind handle storage, t.goto inner, [],
          [t.notice (.rebinding bound handle.name lazyName)]⟩

/-- Runs one action of a callback; none while it waits at a gate. -/
def stepAction? (w : World) (t : Thread) (a : Accessor) (action : Action) (outer : List Frame) :
    Option Step :=
  match action with
  | .access access => some <|
    match w.store.blob? a.storage with
    | none => t.raise outer (.raised "no such storage")
    | some blob =>
      match a.perform w blob access with
      | .ok (reply, blob) =>
        ⟨.setBlob a.storage blob, t.give outer reply, [], []⟩
      | .error panic => t.raise outer panic
  | .panic message => some (t.raise outer (.raised message))
  | .attempt action => some ⟨.nothing, t.goto (.action a action :: .catching :: outer), [], []⟩
  | .step command => some ⟨.nothing, t.goto (.command command :: outer), [], []⟩
  | .thread command => some
    ⟨.nothing, (t.setSpans []).goto (.command command :: .helper t.spans :: .catching :: outer), [], []⟩
  | .signal gate => some ⟨.signal gate, t.give outer .ok, [], []⟩
  | .wait gate =>
    if w.signals.contains gate then some ⟨.nothing, t.give outer (.flag true), [], []⟩ else none

def submit (w : World) (t : Thread) (outer : List Frame) (outcome : World.Submission) : Step :=
  let seen := match outcome with
    | .rejected _ => []
    | .accepted s m =>
      [t.notice (.enqueued m.name (w.categoryAt s) (w.deviceAt s)), .accepted s m]
  ⟨outcome.deed, t.give outer outcome.reply, [], seen⟩

/-- Starts a command; none while a lock it needs is held. -/
def stepCommand? (w : World) (t : Thread) (fresh : Nat) (command : Command)
    (outer : List Frame) : Option Step :=
  match command with
  | .store command =>
    match w.storeCommand? command with
    | .error panic => some (t.raise outer panic)
    | .ok none => none
    | .ok (some (reply, deed)) => some ⟨deed, t.give outer reply, [], []⟩
  | .query command => some <|
    match w.query command with
    | .error violation => t.raise outer (.violation violation)
    | .ok reply => ⟨.nothing, t.give outer reply, [], []⟩
  | .receive name operand => some <|
    match w.message name (some operand) with
    | .error panic => t.raise outer panic
    | .ok m => t.submit w outer (w.receiveMessage m)
  | .receiveMessage name operand => some <|
    match w.message name operand with
    | .error panic => t.raise outer panic
    | .ok m => t.submit w outer (w.receiveMessage m)
  | .enqueue category name operand => some <|
    match w.message name operand with
    | .error panic => t.raise outer panic
    | .ok m =>
      match w.streamOf? category with
      | none => ⟨.nothing, t.give outer .nothing, [], []⟩
      | some s => t.submit w outer (w.enqueue s m)
  | .schedule =>
    some ⟨.nothing, t.goto (.schedule (List.range w.streams.length) 0 :: outer), [], []⟩
  | .scheduleConcurrently =>
    let streams := List.range w.streams.length
    some ⟨.nothing, t.goto (.join (streams.map (fresh + ·)) :: outer),
      streams.map Thread.worker, []⟩
  | .runPending category => some <|
    match w.streamOf? category with
    | none => ⟨.nothing, t.give outer .nothing, [], []⟩
    | some s => ⟨.nothing, t.goto (.drain s .enter 0 :: outer), [], []⟩

/-- Runs the innermost frame. -/
def stepFrame? (w : World) (t : Thread) (fresh : Nat)
    (outcomes : Nat → Option (Except Panic Reply)) (frame : Frame) (outer : List Frame) :
    Option Step :=
  match frame with
  | .command command => t.stepCommand? w fresh command outer
  | .schedule [] total => some ⟨.nothing, t.give outer (.count total), [], []⟩
  | .schedule (s :: left) total =>
    some ⟨.nothing, t.goto (.drain s .enter 0 :: .schedule left total :: outer), [], []⟩
  | .drain s point executed => some (t.stepDrain w s point executed outer)
  | .run i phases => some (t.stepRun i phases outer)
  | .phase i phase [] => some ⟨.nothing, t.give outer .ok, [], [.returned i.stream phase]⟩
  | .phase i phase (move :: moves) => some (t.stepMove w i move (.phase i phase moves :: outer))
  | .borrow a actions =>
    if w.store.canAcquire a.mode a.storage then
      some ⟨.acquire a.mode a.storage, t.goto (.callback a actions :: outer), [], []⟩
    else none
  | .callback a [] =>
    some ⟨.release a.storage, t.give outer .ok, [], []⟩
  | .callback a (action :: actions) =>
    let outer := .callback a actions :: outer
    some ⟨.nothing, t.goto (.action a action :: .log a.category action.name :: outer), [], []⟩
  | .action a action => t.stepAction? w a action outer
  | .log .. | .logDrain _ | .catching => some ⟨.nothing, t.give outer .ok, [], []⟩
  | .helper spans => some ⟨.nothing, (t.setSpans spans).give outer .ok, [], []⟩
  | .join threads =>
    match threads.mapM outcomes with
    | none => none
    | some results =>
      match joinOutcomes results with
      | .ok total => some ⟨.nothing, t.give outer (.count total), [], []⟩
      | .error panic => some ⟨.nothing, t.fail outer panic, [], []⟩

/-- Hands a reply to the innermost frame. -/
def stepReply (w : World) (t : Thread) (reply : Reply) (frame : Frame) (outer : List Frame) :
    Step :=
  match frame with
  | .schedule left total => ⟨.nothing, t.goto (.schedule left (total + reply.toCount) :: outer), [], []⟩
  | .drain s _ executed =>
    ⟨.complete s, t.leaveSpan.goto (.drain s .take (executed + 1) :: outer),
      [], [.completed s]⟩
  | .run i (phase :: phases) => ⟨.nothing, t.goto (.run (i.advance phase) phases :: outer), [], []⟩
  | .phase .. | .callback .. => ⟨.nothing, t.goto (frame :: outer), [], []⟩
  | .log category what => ⟨.nothing, t.give outer .ok, [], [.logged category what reply]⟩
  | .logDrain s =>
    let stream := w.streams[s]?
    ⟨.nothing, t.goto outer, [], [.logged (w.categoryAt s) "drain"
      (.items [reply, .flag (stream.elim false (·.executing)),
        .count (stream.elim 0 (·.pending))])]⟩
  | .catching => ⟨.nothing, t.give outer reply, [], []⟩
  | .helper spans => ⟨.nothing, (t.setSpans spans).give outer reply, [], []⟩
  | .command _ | .run _ [] | .borrow .. | .action .. | .join _ =>
    ⟨.nothing, t.give outer reply, [], []⟩

/-- Unwinds through the innermost frame, which gives up what it holds. -/
def stepUnwind (t : Thread) (panic : Panic) (frame : Frame) (outer : List Frame) : Step :=
  match frame with
  | .drain s _ executed =>
    ⟨.setExecuting s false, t.leaveSpan.fail outer panic,
      [], [.abandoned s executed]⟩
  | .phase i phase _ => ⟨.nothing, t.fail outer panic, [], [.aborted i.stream phase]⟩
  | .callback a _ => ⟨.release a.storage, t.fail outer panic, [], []⟩
  | .catching => ⟨.nothing, t.give outer (.panicked panic), [], []⟩
  | .helper spans => ⟨.nothing, (t.setSpans spans).fail outer panic, [], []⟩
  | _ => ⟨.nothing, t.fail outer panic, [], []⟩

/-- The next step of a thread, if it has any left and is not blocked. `fresh` is the place of the
next thread to be started. -/
def step? (w : World) (t : Thread) (fresh : Nat) (outcomes : Nat → Option (Except Panic Reply)) :
    Option Step :=
  match t.frames with
  | [] => none
  | frame :: outer =>
    match t.control with
    | .run => t.stepFrame? w fresh outcomes frame outer
    | .reply reply => some (t.stepReply w reply frame outer)
    | .unwind panic => some (t.stepUnwind panic frame outer)

end Thread

end StreamMachine
