import PowerMonitor.Runtime.Dispatch.Invariant

/-!
# Accepting a command

The network task keeps the dispatch invariant: an accept stores its command in an entry that is
empty or terminal, so it never hits a held one.
-/

namespace PowerMonitor.Runtime

open AbStore CJson Commands Ota

variable [Sha256] {w : World}

omit [Sha256] in
/-- A step of the network task that leaves the ledger alone. -/
theorem dispatch_network_turn (hi : DispatchInv w) (hstarted : w.main = .started)
    (queue : List Queued) (acks : List (List UInt8)) (network : NetworkPc) (delivered : Results)
    (hitems : queue ++ network.held = w.items) :
    DispatchInv { w with
      queue := queue, acks := acks, network := network, delivered := delivered } := by
  refine hi.keep rfl hitems (fun _ => le_rfl) (fun _ h => h) hi.restart rfl rfl rfl ?_
  exact .started hstarted

/-- What is stored and has not expired is accepted. -/
theorem unfinished_acceptedCommand {incoming : Command} {now : ℤ}
    (hok : acceptRefused incoming = false) (hstate : (acceptedCommand incoming now).state ≠ .expired) :
    unfinished (acceptedCommand incoming now) = true := by
  simp only [acceptRefused, Bool.or_eq_false_iff] at hok
  have hocc : (acceptedCommand incoming now).occupied = true := by
    simp [acceptedCommand, Command.occupied, hok.1.1.1]
  have haccepted : (acceptedCommand incoming now).state = .accepted := by
    simp only [acceptedCommand] at hstate ⊢
    split at hstate
    · exact absurd rfl hstate
    next h => rw [if_neg h]
  rw [unfinished, hocc, haccepted]
  rfl

theorem dispatch_accept (hi : DispatchInv w) (hstarted : w.main = .started)
    (hheld : w.network.held = []) (answered : Sent) (item : CommandItem)
    (items : List CommandItem) (env : Env) :
    DispatchInv (w.acceptItem answered item items env) := by
  have hend := accept_end w.ledger (parsedCommand item env.now) env.now env.mallocOk w.nvs
    env.fault
  unfold World.acceptItem
  dsimp only
  generalize commandAccept w.ledger (parsedCommand item env.now) env.now env.mallocOk w.nvs
    env.fault = a at hend
  split
  · refine DispatchInv.reset _ ?_ _
    exact hi.rebooted
  next e he =>
  have hqueue : w.items = w.queue := by rw [World.items, hheld, List.append_nil]
  cases hend with
  | stored i hstored hnew hsel hok hdup hresult hentry _ hrest =>
    have hfree := hi.free_of_selectEntry hsel
    have hne : ∀ j ∈ w.holders, j ≠ i := fun j hj h => hfree (h ▸ hj)
    have hcommand : (a.outcome.ledger.entries i).commandId.str = item.commandId := by
      rw [Command.commandId_of_bare hentry]
      exact parsedCommand_commandId_str item env.now
    rw [hstored]
    dsimp only
    split
    next hsent =>
      obtain ⟨rfl, -⟩ := hsent
      refine hi.send (fun j hj => hrest j (hne j hj)) rfl rfl (fun _ h => h)
        (.inr ⟨i, hfree, ⟨?_, ?_, fun _ => ?_⟩, ?_⟩) (fun j hj => ?_) (fun j => ?_)
        List.filter_sublist (.started hstarted) (.started hstarted)
      · have hstate : (acceptedCommand (parsedCommand item env.now) env.now).state ≠
            .expired := by
          intro h
          rw [hresult, if_pos h] at he
          cases he
        rw [unfinished, Command.occupied_of_bare hentry, Command.state_of_bare hentry]
        exact unfinished_acceptedCommand hok hstate
      · exact Function.update_self ..
      · simp [hcommand]
      · rw [hqueue]
        rfl
      · exact Function.update_of_ne (hne j hj) ..
      · dsimp only
        rw [Function.update_apply]
        split
        · exact Nat.zero_le 1
        · exact hi.once j
    · -- the command had expired
      refine hi.send (fun j hj => hrest j (hne j hj)) rfl rfl (fun _ h => h) (.inl ?_)
        (fun _ _ => rfl) hi.once (List.Sublist.refl _) (.started hstarted) (.started hstarted)
      rw [hqueue]
      exact List.append_nil _
  | unchanged hsame hnot =>
    have hparsing : ∀ answered delivered, DispatchInv { w with
        nvs := a.outcome.nvs, ledger := a.outcome.ledger, delivered := delivered
        network := .parsing answered items } := by
      intro answered delivered
      refine hi.frame ?_ (fun _ => le_rfl) (fun _ h => h) hi.restart (fun j _ h => ?_)
        (fun j _ _ => hsame j) (fun j => ?_) rfl rfl rfl (.started hstarted)
      · rw [hqueue]
        exact List.append_nil _
      · rwa [unfinished, Command.occupied_of_bare (hsame j), Command.state_of_bare (hsame j)]
      · exact ⟨Command.commandId_of_bare (hsame j), Command.type_of_bare (hsame j)⟩
    split
    · split
      next hsent =>
        obtain ⟨rfl, hd⟩ := hsent
        rw [hnot he] at hd
        cases hd
      · exact hparsing _ _
    · exact hparsing _ _

theorem dispatch_network (hi : DispatchInv w) (env : Env) : DispatchInv (w.stepNetwork env) := by
  by_cases hstarted : w.main = .started
  swap
  · have hstop : w.network = .stopped := by
      have := hi.network
      unfold NetworkPhase at this
      split at this
      · contradiction
      · exact this
    rw [World.stepNetwork, hstop]
    exact hi
  have hturn : ∀ acks network delivered, w.network.held = [] → network.held = [] →
      DispatchInv { w with acks := acks, network := network, delivered := delivered } :=
    fun acks network delivered h h' =>
      dispatch_network_turn hi hstarted w.queue acks network delivered (by rw [World.items, h, h'])
  unfold World.stepNetwork
  split
  · exact hi
  next hpc =>
    split
    · exact hi
    split
    · exact hi
    · exact hturn w.acks _ w.delivered (by rw [hpc]; rfl) rfl
  next body hpc =>
    split
    · exact hturn w.acks _ w.delivered (by rw [hpc]; rfl) rfl
    · exact hturn w.acks _ _ (by rw [hpc]; rfl) rfl
  next answered ids items hpc =>
    split
    · exact hturn w.acks _ w.delivered (by rw [hpc]; rfl) rfl
    · exact hturn _ _ w.delivered (by rw [hpc]; rfl) rfl
  next answered items hpc =>
    split
    · exact hturn w.acks _ w.delivered (by rw [hpc]; rfl) rfl
    split
    · exact hturn w.acks _ w.delivered (by rw [hpc]; rfl) rfl
    split
    · exact hi
    · exact dispatch_accept hi hstarted (by rw [hpc]; rfl) _ _ _ env
  next answered q items hpc =>
    -- there is room, so the item passes from the task to the queue
    have hroom := hi.safe.room answered q items hpc
    refine dispatch_network_turn hi hstarted _ w.acks _ w.delivered ?_
    simp [World.items, hpc, NetworkPc.held, hroom]

/-- The network task resets the device or leaves every entry alone that is held. -/
theorem stepNetwork_held (hi : DispatchInv w) (env : Env) :
    (∃ nvs delivered, w.stepNetwork env =
      World.reset { w with nvs := nvs, delivered := delivered } env.ota.boot) ∨
      ∀ j ∈ w.holders, ((w.stepNetwork env).ledger.entries j).bare = (w.ledger.entries j).bare := by
  unfold World.stepNetwork
  split
  · exact .inr fun _ _ => rfl
  · split
    · exact .inr fun _ _ => rfl
    split <;> exact .inr fun _ _ => rfl
  · split <;> exact .inr fun _ _ => rfl
  · split <;> exact .inr fun _ _ => rfl
  next answered items hpc =>
    split
    · exact .inr fun _ _ => rfl
    next item items =>
    split
    · exact .inr fun _ _ => rfl
    split
    · exact .inr fun _ _ => rfl
    have hend := accept_end w.ledger (parsedCommand item env.now) env.now env.mallocOk
      w.nvs env.fault
    unfold World.acceptItem
    dsimp only
    generalize commandAccept w.ledger (parsedCommand item env.now) env.now env.mallocOk
      w.nvs env.fault = a at hend
    have hheld : ∀ j ∈ w.holders, (a.outcome.ledger.entries j).bare = (w.ledger.entries j).bare := by
      intro j hj
      cases hend with
      | stored i _ _ hsel _ _ _ _ _ hrest =>
        exact hrest j fun h => hi.free_of_selectEntry hsel (h ▸ hj)
      | unchanged hsame _ => exact hsame j
    split
    · exact .inl ⟨_, _, rfl⟩
    split
    · split <;> exact .inr hheld
    · exact .inr hheld
  · exact .inr fun _ _ => rfl

end PowerMonitor.Runtime
