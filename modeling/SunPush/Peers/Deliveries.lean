import SunPush.Library.Termination
import SunPush.Peers.OrderAccounting

/-!
# Deliveries come to an end

What the push server and the web server have sent is delivered in finitely many
steps: each delivery takes a frame off a channel, and the frame sent because of
it, if any, has less work before it.
-/

namespace SunPush

open CInteger LittleEndian Transition

namespace OrderService

/-- A frame that one of the servers has sent is delivered, or the script accepts its connection. -/
def Label.Delivers : Label → Prop
  | .clientReceives _ => True
  | .serverReceivesAnswer _ _ _ => True
  | .webServerAccepts _ => True
  | .webServerReceives => True
  | _ => False

/-! ## How much is left to deliver -/

/-- The deliveries that a frame of the push server can still lead to, its own included. -/
def serverWeight (frame : List UInt8) : Nat :=
  if frame.getD 4 0 = wsData then if frame.getD 5 0 = 52 then 3 else 2 else 1

/-- The deliveries that a frame of the web server can still lead to, its own included. -/
def webWeight (frame : List UInt8) : Nat :=
  if frame.getD 5 0 = 0 then 3 else if frame.getD 5 0 = 4 then 2 else 1

def Script.weight : Script → Nat
  | .listening => 4
  | .serving _ _ => 0
  | .ended => 0

/-- A bound on the deliveries that are left. -/
def backlog (state : State) : Nat :=
  (state.fromServer.map fun entry => serverWeight entry.2).sum +
    (state.fromWebServer.map fun entry => webWeight entry.2).sum + state.script.weight

/-- Taking a message off a channel takes its weight off the sum. -/
theorem sum_take {tag : Int} {flight rest : List (Int × List UInt8)} {message : List UInt8}
    (taken : Channels.take tag flight = some (message, rest)) (weight : List UInt8 → Nat) :
    (flight.map fun entry => weight entry.2).sum =
      weight message + (rest.map fun entry => weight entry.2).sum := by
  have permuted := (Channels.perm_of_take taken).map fun entry => weight entry.2
  rw [permuted.sum_eq, List.map_cons, List.sum_cons]

theorem serverWeight_pos (frame : List UInt8) : 1 ≤ serverWeight frame := by
  rw [serverWeight]
  split
  · split <;> omega
  · omega

theorem backlog_transmit (state : State) (server : Server) (connectID : Int) (message : Memory)
    {length : UInt16} (fits : length.toNat ≤ maxMsgSize) :
    backlog (state.transmit (server.send connectID message length)) ≤
      backlog state + serverWeight (frameOf message length fun i => server.stack i) := by
  rw [transmit_send state server connectID message fits]
  split
  · simp only [backlog, List.map_append, List.map_cons, List.map_nil, List.sum_append,
      List.sum_cons, List.sum_nil]
    omega
  · exact Nat.le_add_right _ _

/-- The frame is no order that ends the script. -/
def Harmless (frame : List UInt8) : Prop :=
  frame.getD 5 0 = 52 → frame.getD 6 0 ≠ 0x30

theorem harmless_of_protocol {frame : List UInt8} {protocol : UInt8}
    (same : frame.getD 5 0 = protocol) (other : protocol ≠ 52) : Harmless frame := by
  intro order
  exact absurd (same.symm.trans order) other

/-- What the script makes of a frame of the push server. -/
theorem msgHandler_reply (size : WebServer.IntSize) {frame : List UInt8}
    (toWebServer : ToWebServer frame) :
    (WebServer.msgHandler size (.listening frame []) = none ∧ ¬Harmless frame) ∨
      ∃ reply, WebServer.msgHandler size (.listening frame []) = some (.listening [] [reply]) ∧
        webWeight reply < serverWeight frame ∧
        ∀ connectID, isAnswer connectID reply ↔ isForwarded connectID frame := by
  cases toWebServer with
  | auth stack beyond =>
      have frame_eq : frameOf (pushSvrAuthSyn stack) 34 beyond =
          (List.range 4).map (wordBytes 34 beyond) ++
            (50 :: 1 :: (WebServer.authStr ++ [])) := rfl
      have handled := @WebServer.msgHandler_pushSvrAuth size
        ((List.range 4).map (wordBytes 34 beyond)) rfl [] []
      rw [← frame_eq] at handled
      right
      refine ⟨_, handled, show 1 < 2 by omega, ?_⟩
      intro connectID
      have no_order : isForwarded connectID (frameOf (pushSvrAuthSyn stack) 34 beyond) = false :=
        rfl
      have no_answer : isAnswer connectID [3, 0, 0, 0, 50, 2, 1] = false := rfl
      rw [no_order, ← no_answer]
  | order stack userGID msg beyond =>
      have handled := TestOrderSyn.msgHandler_frame
        (show testOrderSyn stack userGID msg 0 = wsData from rfl) rfl size beyond [] []
      rw [WebServer.handlerS2WTestOrderSyn, TestOrderSyn.construct_fields,
        List.append_nil] at handled
      change WebServer.msgHandler size
        (.listening (frameOf (testOrderSyn stack userGID msg) 198 beyond) []) = _ at handled
      by_cases zero : TestOrderSyn.byOrderType (testOrderSyn stack userGID msg) = 0x30
      · rw [if_pos zero] at handled
        left
        exact ⟨handled, fun harmless => harmless rfl zero⟩
      · rw [if_neg zero] at handled
        simp only [Option.bind_eq_bind, Option.bind_some, TestOrderSyn.writePack_record] at handled
        right
        refine ⟨_, handled, show 2 < 3 by omega, ?_⟩
        intro connectID
        rw [isAnswer_answer, isForwarded_order]

/-- What travels to the web server is one of the push server's two messages for it. -/
theorem Accounted.toWebServer {state : State} {spare : Int → Nat}
    (accounted : Accounted state spare) {connectID : Int} {frame : List UInt8}
    (webServer : IsPeer state connectID .webServer)
    (entry_mem : (connectID, frame) ∈ state.fromServer) : ToWebServer frame := by
  rcases accounted.fromServer _ entry_mem with client | ⟨_, toWebServer⟩
  · rw [IsPeer] at client webServer
    rw [client] at webServer
    contradiction
  · exact toWebServer

/-! ## Every delivery leaves less to deliver -/

section Backlog

variable {size : WebServer.IntSize} {state next : State}

theorem backlog_takeFromServer {connectID : Int} {frame : List UInt8}
    {rest : List (Int × List UInt8)}
    (taken : Channels.take connectID state.fromServer = some (frame, rest)) :
    backlog state = serverWeight frame + backlog { state with fromServer := rest } := by
  simp only [backlog, sum_take taken serverWeight]
  omega

theorem backlog_takeFromWebServer {connectID : Int} {frame : List UInt8}
    {rest : List (Int × List UInt8)}
    (taken : Channels.take connectID state.fromWebServer = some (frame, rest)) :
    backlog state = webWeight frame + backlog { state with fromWebServer := rest } := by
  simp only [backlog, sum_take taken webWeight]
  omega

theorem backlog_answers (state : State) (connectID : Int) (frame : List UInt8) :
    backlog (state.answers connectID [frame]) = backlog state + webWeight frame := by
  simp only [backlog, State.answers, List.map_append, List.map_cons, List.map_nil,
    List.sum_append, List.sum_cons, List.sum_nil]
  omega

theorem backlog_webServerAccepts {connectID : Int}
    (enabled : step size state (.webServerAccepts connectID) = some next) :
    backlog next < backlog state := by
  cases script : state.script with
  | serving connectID socket => simp [step, script] at enabled
  | ended => simp [step, script] at enabled
  | listening =>
      simp only [step, script, Option.ite_none_right_eq_some, Option.some.injEq] at enabled
      rcases enabled with ⟨_, rfl⟩
      have confirms : WebServer.confirmConnect size (.listening [] []) =
          .listening [] [[2, 0, 0, 0, 50, 0]] := by
        cases size <;> rfl
      have confirmed : webWeight [2, 0, 0, 0, 50, 0] = 3 := rfl
      rw [confirms]
      change backlog (State.answers { state with script := _ } connectID [_]) < _
      rw [backlog_answers, confirmed]
      simp only [backlog, script, Script.weight]
      omega

theorem backlog_webServerReceives (accounted : Accounted state fun _ => 0)
    (enabled : step size state .webServerReceives = some next) :
    backlog next < backlog state := by
  cases script : state.script with
  | listening => simp [step, script] at enabled
  | ended => simp [step, script] at enabled
  | serving connectID socket =>
      rcases accounted.script connectID socket script with ⟨rfl, webServer⟩
      simp only [step, script, Option.map_eq_some_iff] at enabled
      rcases enabled with ⟨⟨frame, rest⟩, taken, rfl⟩
      have toWebServer : ToWebServer frame :=
        accounted.toWebServer webServer (Channels.mem_of_take taken).1
      have weight := backlog_takeFromServer taken
      have positive := serverWeight_pos frame
      have input : { WebServer.Socket.listening [] [] with
          input := (WebServer.Socket.listening [] []).input ++ frame } =
          WebServer.Socket.listening frame [] := rfl
      rw [input]
      rcases msgHandler_reply size toWebServer with ⟨dies, _⟩ | ⟨reply, replies, lighter, _⟩
      · rw [dies]
        simp only [backlog, script, Script.weight] at weight ⊢
        omega
      · rw [replies]
        change backlog (State.answers { state with fromServer := rest, script := _ } connectID
          [reply]) < _
        rw [backlog_answers]
        simp only [backlog, script, Script.weight] at weight ⊢
        omega

theorem webWeight_pos (frame : List UInt8) : 1 ≤ webWeight frame := by
  rw [webWeight]
  split
  · omega
  · split <;> omega

/-- What the push server sends because of a frame has less before it than the frame. -/
theorem backlog_onWebReadComplete (state : State) (connectID : Int) (rest : Memory)
    {frame : List UInt8} (written : FromWebServer frame) :
    backlog (state.finish (state.server.onWebReadComplete connectID
      (buffer rest (frame.drop 4)))) < backlog state + webWeight frame := by
  cases written with
  | connected =>
      have sent := @backlog_transmit state state.server connectID
        (pushSvrAuthSyn state.server.stack) 34 (by decide)
      have two : serverWeight (frameOf (pushSvrAuthSyn state.server.stack) 34
          fun i => state.server.stack i) = 2 := rfl
      have three : webWeight [2, 0, 0, 0, 50, 0] = 3 := rfl
      change backlog (state.transmit (state.server.send connectID
        (pushSvrAuthSyn state.server.stack) 34)) < _
      omega
  | result byResult => exact Nat.lt_succ_self _
  | answer syn =>
      have received : (buffer rest ((TestOrderSyn.answer syn).drop 4)).read 0 10 =
          (TestOrderSyn.answer syn).drop 4 := Memory.read_write_self ..
      have sent := @backlog_transmit state state.server (TestOrderSyn.iUserGID syn)
        (testOrderAck state.server.stack) 3 (by decide)
      have one : serverWeight (frameOf (testOrderAck state.server.stack) 3
          fun i => state.server.stack i) = 1 := rfl
      have two : webWeight (TestOrderSyn.answer syn) = 2 := rfl
      rw [(TestOrderSyn.answered syn).iUsrConID _ _ _ received]
      change backlog (state.transmit (state.server.send (TestOrderSyn.iUserGID syn)
        (testOrderAck state.server.stack) 3)) < _
      omega

theorem backlog_serverReceivesAnswer (accounted : Accounted state fun _ => 0) {connectID : Int}
    {rest stack : Memory}
    (enabled : step size state (.serverReceivesAnswer connectID rest stack) = some next) :
    backlog next < backlog state := by
  simp only [step, Option.ite_none_right_eq_some, Option.map_eq_some_iff] at enabled
  rcases enabled with ⟨_, ⟨frame, fromWebServer⟩, taken, rfl⟩
  have weight := backlog_takeFromWebServer taken
  have positive := webWeight_pos frame
  have written : FromWebServer frame :=
    accounted.fromWebServer _ (Channels.mem_of_take taken).1
  by_cases delivered : Delivered (frame.drop 4)
  · have same : backlog ({ state with fromWebServer }.withStack stack) =
        backlog { state with fromWebServer } := rfl
    have less := backlog_onWebReadComplete ({ state with fromWebServer }.withStack stack) connectID
      rest written
    simp only [if_pos delivered]
    omega
  · simp only [if_neg delivered]
    omega

/-- Deliveries come to an end. -/
theorem decreases (size : WebServer.IntSize) :
    (system size).Decreases Label.Delivers (fun state => Accounted state fun _ => 0) backlog where
  known := by
    intro state label next accounted _ enabled
    exact accounted.step enabled
  less := by
    intro state label next accounted delivers enabled
    cases label with
    | clientReceives connectID =>
        simp only [system, step, Option.ite_none_right_eq_some, Option.map_eq_some_iff] at enabled
        rcases enabled with ⟨_, ⟨frame, rest⟩, taken, rfl⟩
        have weight := backlog_takeFromServer taken
        have positive := serverWeight_pos frame
        simp only
        omega
    | serverReceivesAnswer connectID rest stack =>
        exact @backlog_serverReceivesAnswer size _ _ accounted _ _ _ enabled
    | webServerAccepts connectID => exact backlog_webServerAccepts enabled
    | webServerReceives => exact backlog_webServerReceives accounted enabled
    | accept => exact delivers.elim
    | connect => exact delivers.elim
    | close => exact delivers.elim
    | clientSends => exact delivers.elim
    | serverReceivesRequest => exact delivers.elim
    | webServerEnds => exact delivers.elim

end Backlog

end OrderService

end SunPush
