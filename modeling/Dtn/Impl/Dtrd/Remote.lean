import Dtn.Impl.Dtrd.Protocol

/-!
# Forwarding the queue of a node, step by step (`dtrd/src/bundleprotocolagent/agent.rs`)

`deliver_remote_bundles` again, with its `while` loop on the queue itself and
with a result of its own for each call of `try_send`: the session agents run on
their own and may stop between two calls. `Context.deliverRemoteBundles`
supposes that they do not stop in the meantime.
-/

namespace Dtn.Dtrd.Protocol

open Dtn.Bp7

/-- The agent in the middle of the loop. `results` are those of further calls of `try_send`, where a mailbox is full
when there are no more of them, and `offered` are the calls so far. -/
structure Attempt where
  daemon : Daemon
  visited : List String
  results : List SendResult
  sent : List Command
  offered : List (StoredBundleRef × SendResult)

namespace Attempt

/-- The agent before the loop. -/
def start (d : Daemon) (results : List SendResult) : Attempt := ⟨d, [], results, [], []⟩

def send (a : Attempt) (command : Command) : Attempt := { a with sent := a.sent ++ [command] }

def trySend (a : Attempt) (bundle : StoredBundleRef) : SendResult × Attempt :=
  let result := a.results.headD .full
  (result, { a with results := a.results.tail, offered := a.offered ++ [(bundle, result)] })

variable (destination : Endpoint) (sender : Nat) (limit : Option UInt64)

def withQueue (a : Attempt) (queue : List StoredBundleRef) : Attempt :=
  { a with daemon := { a.daemon with remoteBundles := a.daemon.remoteBundles.insert destination queue } }

/-- The body of the loop, for the bundle taken from the front of the queue. It says whether the loop goes on. -/
def body (a : Attempt) (bundle : StoredBundleRef) (queue : List StoredBundleRef) : Attempt × Bool :=
  if a.visited.contains bundle.getId then (a.withQueue destination (bundle :: queue), false)
  else
    match Context.tooLarge limit bundle with
    | some mbs =>
      if bundle.primaryBlock.bundleProcessingFlags.contains .mustNotFragment || bundle.minSize.any (· > mbs) then
        ({ a.withQueue destination (queue ++ [bundle]) with visited := bundle.getId :: a.visited }, true)
      else ((a.withQueue destination queue).send (.storage (.fragmentBundle bundle mbs)), true)
    | none =>
      match (a.withQueue destination queue).trySend bundle with
      | (.ok, a) =>
        let pending := a.daemon.bundlesPendingForwarding
        ({ a.send (.agentForwardBundle sender bundle) with
          daemon := { a.daemon with
            bundlesPendingForwarding := pending.insert destination (pending.list destination ++ [bundle]) } }, true)
      | (.full, a) => (a.withQueue destination (queue ++ [bundle]), false)
      | (.closed, a) =>
        let a := a.withQueue destination (queue ++ [bundle])
        ({ a with daemon := { a.daemon with
          remoteConnections := a.daemon.remoteConnections.remove destination } }, false)

/-- `while let Some(bundle) = queue.pop_front()`, if it ends within so many iterations. -/
def loop : Nat → Attempt → Option Attempt
  | 0, _ => none
  | n + 1, a =>
    match a.daemon.remoteBundles.list destination with
    | [] => some a
    | bundle :: queue =>
      match a.body destination sender limit bundle queue with
      | (a, true) => loop n a
      | (a, false) => some a

/-- `deliver_remote_bundles`, if its loop ends within so many iterations. -/
def deliverRemoteBundles (n : Nat) (d : Daemon) (results : List SendResult) (destination : Endpoint) :
    Outcome Empty (Option Attempt) := do
  let destination ← destination.getNodeEndpoint
  match Context.nextHop d destination, d.remoteBundles.get destination with
  | some (sender, limit), some _ => return loop destination sender limit n (start d results)
  | _, _ => return some (start d results)

end Attempt

end Dtn.Dtrd.Protocol
