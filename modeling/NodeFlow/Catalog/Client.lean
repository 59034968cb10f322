namespace NodeFlow

-- In nanoseconds, like the readings of the clock.
structure Duration where
  ticks : Nat
  deriving DecidableEq

namespace Duration

def ticksPerSecond : Nat := 1000000000

def ofSeconds (seconds : Nat) : Duration := ⟨seconds * ticksPerSecond⟩

def seconds (duration : Duration) : Nat := duration.ticks / ticksPerSecond

instance (seconds : Nat) : OfNat Duration seconds := ⟨ofSeconds seconds⟩

instance : CoeTail Nat Duration := ⟨ofSeconds⟩

instance : CoeHead Duration Nat := ⟨seconds⟩

end Duration

inductive Reply
  -- Nobody listens there, the connection was closed, or the time was up.
  | silence
  | answered (status : Nat) (body : String)
  -- The body breaks off, or is no text.
  | broken (status : Nat)
  -- The answer names another place; what is answered there goes on from it.
  | moved (status : Nat) (location body : String) (onward : Reply)
  deriving DecidableEq

def Reply.isLast : Reply → Bool
  | .moved .. => false
  | _ => true

structure Response where
  status : Nat
  body : Option String
  deriving DecidableEq

-- What came of a GET: what hosts were asked for, in order, and the last response or the client's words for why
-- there is none.
structure Exchange where
  requests : List String
  outcome : Except String Response

-- The web client of a catalog. It decides which URLs it sends requests for, and whether it follows an answer to
-- another place.
structure Client where
  -- What the host of a URL is asked for first, if requests are sent for the URL at all.
  target? : String → Option String
  get : String → Duration → Reply → Exchange

-- What the documentation of a client promises.
structure Client.Documented (client : Client) : Prop where
  refuses : ∀ {url}, client.target? url = none → ∀ timeout reply,
    (client.get url timeout reply).requests = [] ∧ (client.get url timeout reply).outcome.isOk = false
  sends : ∀ {url target}, client.target? url = some target → ∀ timeout reply,
    (client.get url timeout reply).requests.head? = some target
  -- Only redirects make further requests.
  stays : ∀ {url target}, client.target? url = some target → ∀ timeout reply, reply.isLast = true →
    (client.get url timeout reply).requests = [target]
  fails : ∀ url timeout, (client.get url timeout .silence).outcome.isOk = false
  -- A status of 200 ends an exchange, with the body as it came.
  answers : ∀ {url target}, client.target? url = some target → ∀ timeout body,
    (client.get url timeout (.answered 200 body)).outcome = .ok ⟨200, some body⟩
  reports : ∀ url timeout status body response,
    (client.get url timeout (.answered status body)).outcome = .ok response → response.status = status
  breaks : ∀ url timeout status response,
    (client.get url timeout (.broken status)).outcome = .ok response → response = ⟨status, none⟩

end NodeFlow
