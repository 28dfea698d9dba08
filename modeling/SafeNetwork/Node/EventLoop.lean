import SafeNetwork.Node.Pipeline

/-! `Node::run`'s event loop and `handle_network_event`, against the node's state at each event. -/
namespace SafeNetwork.Node

open Proc

/-- The overlay's `NetworkEvent`, by the variants `handle_network_event` matches. -/
inductive NetworkEvent
  | requestReceived (req : Request)
  | peerAdded
deriving DecidableEq

/-- `NodeEvent`: what the node broadcasts to the listeners of its public API. -/
inductive NodeEvent
  | attemptingNetworkConnection
  | networkConnectionTimingOut
  | connectedToNetwork
  | chunkStored (address : ChunkAddress)
  | registerCreated (address : RegisterAddress)
  | registerEdited (address : RegisterAddress)
  | spendStored (dbcId : DbcId)
  | channelClosed
  | behindNat
deriving DecidableEq

/-- What the loop does that others see: a request's effects, a broadcast, a closest-peers lookup. -/
inductive LoopEffect
  | request (effect : NodeEffect)
  | broadcast (event : NodeEvent)
  | getClosestPeers (target : XorName)
deriving DecidableEq

abbrev LoopM := Proc (List LoopEffect) Error

section
variable (env : NodeEnv)

/-- `handle_network_event`; `target` is the name `XorName::random` draws for a new peer. -/
def handleNetworkEvent (target : XorName) : NetworkEvent → LoopM Unit
  | .requestReceived req =>
    ⟨fun effects =>
      let (handled, result) := (handleRequest env req).run []
      (effects ++ handled.map .request, result)⟩
  | .peerAdded => modify (· ++ [.broadcast .connectedToNetwork, .getClosestPeers target])

/-- The response a loop effect sends, if it is one. -/
def LoopEffect.response : LoopEffect → Option Response
  | .request (.sendResponse r) => some r
  | _ => none

/-- Whether `handle_request` answers: never an event, any other request when it returns `Ok`. -/
def NetworkEvent.answered : NetworkEvent → Bool
  | .requestReceived (.event _) => false
  | .requestReceived req => ((handleRequest env req).run []).2.isOk
  | .peerAdded => false

end

/-- The `loop` `Node::run` spawns; the `k`-th yield meets node state `envAt k` and draws `rng k`. -/
def eventLoop (envAt : Nat → NodeEnv) (rng : Nat → XorName) :
    Nat → List (Option NetworkEvent) → LoopM Unit
  | _, [] => pure ()
  | k, none :: rest => eventLoop envAt rng (k + 1) rest
  | k, some event :: rest => do
    attempt (handleNetworkEvent (envAt k) (rng k) event)
    eventLoop envAt rng (k + 1) rest

variable {env : NodeEnv}

theorem handleNetworkEvent_run (target : XorName) (event : NetworkEvent)
    (effects : List LoopEffect) :
    (handleNetworkEvent env target event).run effects =
      (effects ++ ((handleNetworkEvent env target event).run []).1,
        ((handleNetworkEvent env target event).run []).2) := by
  cases event <;> simp [handleNetworkEvent]

/-- The loop only appends, and never fails. -/
theorem eventLoop_run (envAt : Nat → NodeEnv) (rng : Nat → XorName) :
    ∀ k items (effects : List LoopEffect),
      (eventLoop envAt rng k items).run effects =
        (effects ++ ((eventLoop envAt rng k items).run []).1, .ok ())
  | _, [], _ => by simp [eventLoop]
  | k, none :: rest, effects => eventLoop_run envAt rng (k + 1) rest effects
  | k, some event :: rest, effects => by
    simp only [eventLoop, run_bind, run_attempt]
    rw [handleNetworkEvent_run, eventLoop_run envAt rng (k + 1) rest,
      eventLoop_run envAt rng (k + 1) rest ((handleNetworkEvent (envAt k) (rng k) event).run []).1,
      List.append_assoc]

/-- An event is handled as if it were the first: what it does is followed by what the rest does. -/
theorem eventLoop_some (envAt : Nat → NodeEnv) (rng : Nat → XorName) (k : Nat) (event : NetworkEvent)
    (rest : List (Option NetworkEvent)) :
    ((eventLoop envAt rng k (some event :: rest)).run []).1 =
      ((handleNetworkEvent (envAt k) (rng k) event).run []).1 ++
        ((eventLoop envAt rng (k + 1) rest).run []).1 := by
  simp only [eventLoop, run_bind, run_attempt]
  rw [eventLoop_run]

theorem handleNetworkEvent_responses (target : XorName) (event : NetworkEvent) :
    (((handleNetworkEvent env target event).run []).1.filterMap LoopEffect.response).length =
      if event.answered env then 1 else 0 := by
  cases event with
  | requestReceived req =>
    have hr : ∀ l : List NodeEffect,
        (l.map LoopEffect.request).filterMap LoopEffect.response = responses l := by
      intro l
      induction l with
      | nil => rfl
      | cons e l ih => cases e <;> simp [LoopEffect.response, responses, ih]
    have h := @handleRequest_responses env req
    simp only [handleNetworkEvent, List.nil_append, hr]
    rcases req with _ | _ | _ <;> simpa [NetworkEvent.answered] using h
  | peerAdded => simp [handleNetworkEvent, LoopEffect.response, NetworkEvent.answered]

/-- Whatever the node's state at each yield, the loop runs on, answers as `handle_request` returns. -/
theorem eventLoop_answers (envAt : Nat → NodeEnv) (rng : Nat → XorName) (k : Nat)
    (items : List (Option NetworkEvent)) :
    ((eventLoop envAt rng k items).run []).2 = .ok () ∧
      (((eventLoop envAt rng k items).run []).1.filterMap LoopEffect.response).length =
        (items.enumFrom k).countP (fun p => p.2.any (NetworkEvent.answered (envAt p.1))) ∧
      ((eventLoop envAt rng k items).run []).1.count (.broadcast .connectedToNetwork) =
        items.count (some .peerAdded) := by
  refine ⟨by rw [eventLoop_run], ?_⟩
  induction items generalizing k with
  | nil => simp [eventLoop]
  | cons item rest ih =>
    obtain ⟨ihr, ihb⟩ := ih (k + 1)
    cases item with
    | none => exact ⟨by simpa [eventLoop] using ihr, by simpa [eventLoop] using ihb⟩
    | some event =>
      rw [eventLoop_some, List.filterMap_append, List.length_append, handleNetworkEvent_responses,
        ihr, List.count_append, ihb]
      cases event <;> simp [handleNetworkEvent, NetworkEvent.answered, List.countP_cons,
        List.count_cons, List.count_eq_zero, Nat.add_comm]

end SafeNetwork.Node
