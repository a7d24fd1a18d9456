import ArbNautilus.Bitfinex.DataClient
import Mathlib.Data.Finset.Card

/-! The public data client and a conforming venue: every order of commands, answers, heartbeats and
data. -/

namespace ArbNautilus.Bitfinex.DataClient

open Base Book

section System

/-- A request that the venue has not answered; a subscription may have its channel before that. -/
inductive Asked
  | conf
  | subscribe (kind : Kind) (channelId : Option ℤ)
  | unsubscribe (channelId : ℤ)
deriving DecidableEq

def Asked.of : Request → Asked
  | .conf => .conf
  | .subscribe kind => .subscribe kind none
  | .unsubscribe channelId => .unsubscribe channelId

/-- What a conforming venue sends. -/
inductive Message
  | info
  | conf
  | subscribed (kind : Kind) (channelId : ℤ)
  | unsubscribed (channelId : ℤ)
  | refused
  | heartbeat (channelId : ℤ)
  | data (channelId : ℤ) (payload : Value) (rest : List Value)

def member (key value : String) : PyStr × Value := (.text key.toList, text value)

def chanId (channelId : ℤ) : PyStr × Value := (.text "chanId".toList, .int channelId)

/-- The answer to a subscription repeats it. -/
def Message.frame (cfg : Config) : Message → Frame
  | .info => .control [member "event" "info", (.text "version".toList, .int 2),
      (.text "platform".toList, .obj [(.text "status".toList, .int 1)])]
  | .conf => .control [member "event" "conf", member "status" "OK"]
  | .subscribed kind channelId => .control
      (member "event" "subscribed" :: chanId channelId ::
        (subscription cfg kind).map fun expected => member expected.1 expected.2)
  | .unsubscribed channelId => .control
      [member "event" "unsubscribed", member "status" "OK", chanId channelId]
  | .refused => .control [member "event" "error"]
  | .heartbeat channelId => .channel [.int channelId, text "hb"]
  | .data channelId payload rest => .channel (.int channelId :: payload :: rest)

structure System where
  client : Client := {}
  /-- Every request so far, and those that are not answered. -/
  sent : List Request := []
  queue : List Asked := []
  /-- The channels that were ever given, those that are open, and the book that each of these
  carries. -/
  kinds : ℤ → Option Kind := fun _ => none
  opened : Finset ℤ := ∅
  books : ℤ → P0Book := fun _ => .empty
  inbound : List Message := []

namespace System

def act (s : System) (result : Client × List Request) : System :=
  { s with client := result.1, sent := s.sent ++ result.2, queue :=
    s.queue ++ result.2.map Asked.of }

def send (s : System) (message : Message) : System := { s with inbound := s.inbound ++ [message] }

/-- A task that was woken goes on before the loop reads what comes in after that. -/
def Settled (s : System) : Prop := ∀ k, (s.client.lanes k).woken = 0

end System

/-- Data of an open channel that a subscriber of it takes, whatever it publishes. -/
def Conforms (cfg : Config) (s : System) (channelId : ℤ) (payload : Value) (rest : List Value)
    (book : P0Book) :
    Prop :=
  match s.kinds channelId with
  | some .book => ∃ nowNs published,
      consumeBookFrame cfg true true (s.books channelId) (.int channelId :: payload :: rest) nowNs =
        .ok (book, published)
  | some .funding => book = s.books channelId ∧ ∃ nowNs published,
      consumeFundingFrame true (.int channelId :: payload :: rest) nowNs = .ok published
  | none => False

/-- One step of the client or of the venue, and the call of the data engine it comes from, if
any. -/
inductive Step (cfg : Config) : System → Option Command → System → Prop
  | command (s : System) (command : Command) :
      Step cfg s (some command) (s.act (s.client.command cfg command))
  | configured (s : System) : Step cfg s none (s.act s.client.configured)
  | unsubscribeTask (s : System) (k : Kind) :
    Step cfg s none (s.act (s.client.runUnsubscribeTask k))
  | resume (s : System) (k : Kind) : Step cfg s none (s.act (s.client.resumeSubscription k))
  | read (s : System) (message : Message) (rest : List Message) (nowNs : ℤ)
    (first : s.inbound = message :: rest) :
      Step cfg s none
        { s with client := (s.client.readFrame cfg (message.frame cfg) nowNs).1, inbound := rest }
  | give (s : System) (k : Kind) (earlier later : List Asked) (channelId : ℤ) (settled : s.Settled)
      (waits : s.queue = earlier ++ .subscribe k none :: later) (positive : 0 < channelId)
      (fresh : s.kinds channelId = none) : Step cfg s none { s with
        queue := earlier ++ .subscribe k (some channelId) :: later
        kinds := Function.update s.kinds channelId (some k) }
  | info (s : System) (settled : s.Settled) : Step cfg s none (s.send .info)
  | answerConf (s : System) (later : List Asked) (settled : s.Settled)
    (first : s.queue = .conf :: later) :
      Step cfg s none ({ s with queue := later }.send .conf)
  | answerSubscribe (s : System) (k : Kind) (channelId : ℤ) (later : List Asked)
    (settled : s.Settled)
      (first : s.queue = .subscribe k (some channelId) :: later) : Step cfg s none ({ s with
        queue := later
        opened := insert channelId s.opened
        books := Function.update s.books channelId .empty }.send (.subscribed k channelId))
  | answerUnsubscribe (s : System) (channelId : ℤ) (later : List Asked) (settled : s.Settled)
      (first : s.queue = .unsubscribe channelId :: later) (live : channelId ∈ s.opened) :
      Step cfg s none ({ s with
        queue := later
        opened := s.opened.erase channelId }.send (.unsubscribed channelId))
  | refuse (s : System) (channelId : ℤ) (later : List Asked) (settled : s.Settled)
      (first : s.queue = .unsubscribe channelId :: later) (closed : channelId ∉ s.opened) :
      Step cfg s none ({ s with queue := later }.send .refused)
  | heartbeat (s : System) (channelId : ℤ) (settled : s.Settled)
      (given : channelId ∈ s.opened ∨ ∃ k, .subscribe k (some channelId) ∈ s.queue) :
      Step cfg s none (s.send (.heartbeat channelId))
  | data (s : System) (channelId : ℤ) (payload : Value) (rest : List Value) (book : P0Book)
    (settled : s.Settled)
      (live : channelId ∈ s.opened) (conforms : Conforms cfg s channelId payload rest book) :
      Step cfg s none
        ({ s with books := Function.update s.books channelId book }.send
        (.data channelId payload rest))

/-- What the system can come to by calls that each meet a condition. -/
inductive Reachable (cfg : Config) (meets : Client → Command → Prop) : System → Prop
  | start : Reachable cfg meets {}
  | next {s t : System} {call : Option Command} : Reachable cfg meets s → Step cfg s call t →
      (∀ command ∈ call, meets s.client command) → Reachable cfg meets t

end System

end ArbNautilus.Bitfinex.DataClient
