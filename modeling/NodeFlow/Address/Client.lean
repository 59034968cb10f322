import NodeFlow.Address.Basic
import NodeFlow.Catalog.Client

namespace NodeFlow

namespace Address

def building (address : Address) : String := "builder error for url (" ++ address.render ++ ")"

def sending (address : Address) : String := "error sending request for url (" ++ address.render ++ ")"

def redirecting (address : Address) : String := "error following redirect for url (" ++ address.render ++ ")"

-- Statuses of three digits, of which those that only announce an answer are none.
def isFinal (status : Nat) : Bool := status == 101 || (200 ≤ status && status ≤ 999)

def redirects (status : Nat) : Bool := [301, 302, 303, 307, 308].contains status

def received (address : Address) (status : Nat) (body : Option String) : Except String Response :=
  if isFinal status then .ok ⟨status, body⟩ else .error address.sending

-- The exchange that begins with a request for the address. So many redirects are followed; a location that is no
-- address is none.
def ask (address : Address) : Nat → Reply → Exchange
  | _, .silence => ⟨[address.target], .error address.sending⟩
  | _, .answered status body => ⟨[address.target], address.received status (some body)⟩
  | _, .broken status => ⟨[address.target], address.received status none⟩
  | further, .moved status location body onward =>
    match address.location? location, redirects status, further with
    | some next, true, further + 1 =>
      if next.isAskable then
        let later := next.ask further onward
        { later with requests := address.target :: later.requests }
      else ⟨[address.target], .error next.building⟩
    | some next, true, 0 => ⟨[address.target], .error next.redirecting⟩
    | _, _, _ => ⟨[address.target], address.received status (some body)⟩
  termination_by structural _ reply => reply

end Address

def Client.web : Client where
  target? url := (Address.read? url).bind fun address =>
    if address.isAskable then some address.target else none
  get url _ reply :=
    match Address.read? url with
    | some address =>
      if address.isAskable then address.ask 10 reply else ⟨[], .error address.building⟩
    | none => ⟨[], .error "builder error"⟩

end NodeFlow
