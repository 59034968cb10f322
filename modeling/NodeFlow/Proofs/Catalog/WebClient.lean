import NodeFlow.Address.Client

namespace NodeFlow

section Exchanges

theorem Address.head?_requests_ask (address : Address) (further : Nat) (reply : Reply) :
    (address.ask further reply).requests.head? = some address.target := by
  cases reply with
  | moved status location body onward =>
    unfold Address.ask
    dsimp only
    split
    · split <;> rfl
    · rfl
    · rfl
  | _ => rfl

theorem Address.requests_ask_of_isLast (address : Address) (further : Nat) {reply : Reply}
    (last : reply.isLast = true) : (address.ask further reply).requests = [address.target] := by
  cases reply with
  | moved => cases last
  | _ => rfl

theorem Address.received_eq_ok {address : Address} {status : Nat} {body : Option String} {response : Response}
    (came : address.received status body = .ok response) : response = ⟨status, body⟩ := by
  unfold received at came
  split at came
  · exact (Except.ok.inj came).symm
  · cases came

end Exchanges

namespace Client

theorem web_cases (url : String) :
    (∃ address : Address, web.target? url = some address.target ∧
      ∀ timeout reply, web.get url timeout reply = address.ask 10 reply) ∨
    ∃ words, web.target? url = none ∧ ∀ timeout reply, web.get url timeout reply = ⟨[], .error words⟩ := by
  cases read : Address.read? url with
  | none => exact .inr ⟨"builder error", by simp [web, read]⟩
  | some address =>
    by_cases askable : address.isAskable = true
    · exact .inl ⟨address, by simp [web, read, askable]⟩
    · exact .inr ⟨address.building, by simp [web, read, askable]⟩

theorem documented_web : Documented web where
  refuses := by
    intro url unsent timeout reply
    rcases web_cases url with ⟨address, sent, _⟩ | ⟨words, _, gets⟩
    · cases unsent.symm.trans sent
    · rw [gets]
      exact ⟨rfl, rfl⟩
  sends := by
    intro url target sent timeout reply
    rcases web_cases url with ⟨address, same, gets⟩ | ⟨words, unsent, _⟩
    · rw [gets, Address.head?_requests_ask, ← same, sent]
    · cases unsent.symm.trans sent
  stays := by
    intro url target sent timeout reply last
    rcases web_cases url with ⟨address, same, gets⟩ | ⟨words, unsent, _⟩
    · rw [gets, address.requests_ask_of_isLast 10 last]
      exact congrArg (fun target => [target]) (Option.some.inj (same.symm.trans sent))
    · cases unsent.symm.trans sent
  fails := by
    intro url timeout
    rcases web_cases url with ⟨address, _, gets⟩ | ⟨words, _, gets⟩ <;> rw [gets] <;> rfl
  answers := by
    intro url target sent timeout body
    rcases web_cases url with ⟨address, same, gets⟩ | ⟨words, unsent, _⟩
    · rw [gets]
      rfl
    · cases unsent.symm.trans sent
  reports := by
    intro url timeout status body response came
    rcases web_cases url with ⟨address, _, gets⟩ | ⟨words, _, gets⟩
    · rw [gets] at came
      exact congrArg Response.status (Address.received_eq_ok came)
    · rw [gets] at came
      cases came
  breaks := by
    intro url timeout status response came
    rcases web_cases url with ⟨address, _, gets⟩ | ⟨words, _, gets⟩
    · rw [gets] at came
      exact Address.received_eq_ok came
    · rw [gets] at came
      cases came

end Client

end NodeFlow
