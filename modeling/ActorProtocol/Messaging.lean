/-!
# How messages travel

A message is sent under one of three semantics and declared with a direction
seen from one side of the channel. A transition names the message together with
a trigger, which fixes the direction the message must be able to travel.
-/

namespace ActorProtocol

set_option autoImplicit false

inductive Semantics where
  | async
  | sync
  | rpc
  deriving DecidableEq

inductive Direction where
  | inbound
  | outbound
  | either
  deriving DecidableEq

inductive Trigger where
  | send
  | recv
  | call
  | answer
  deriving DecidableEq

namespace Semantics

def name : Semantics → String
  | async => "async"
  | sync => "sync"
  | rpc => "rpc"

def all : List Semantics := [async, sync, rpc]

def ofName? (text : String) : Option Semantics :=
  all.find? fun semantics => semantics.name == text

/-- The sender of a sync or rpc message waits for a reply. -/
def hasReply : Semantics → Bool
  | async => false
  | sync | rpc => true

end Semantics

namespace Direction

def name : Direction → String
  | inbound => "in"
  | outbound => "out"
  | either => "inout"

def all : List Direction := [inbound, outbound, either]

def ofName? (text : String) : Option Direction :=
  all.find? fun direction => direction.name == text

/-- Whether a message declared with this direction may travel the given way. -/
def admits (declared travelled : Direction) : Bool :=
  declared == either || declared == travelled

end Direction

namespace Trigger

def name : Trigger → String
  | send => "send"
  | recv => "recv"
  | call => "call"
  | answer => "answer"

def all : List Trigger := [send, recv, call, answer]

def ofName? (text : String) : Option Trigger :=
  all.find? fun trigger => trigger.name == text

/-- The way a message travels when the trigger fires. -/
def direction : Trigger → Direction
  | send | call => .outbound
  | recv | answer => .inbound

/-- The triggers under which a reply is given. -/
def isReply : Trigger → Bool
  | call | answer => true
  | send | recv => false

end Trigger

end ActorProtocol
