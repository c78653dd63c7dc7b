import BitCrawler.PeerCache

/-! # Where an error ends a process

`is_excluded` raises exactly where `ip_address` does: on a text that is neither an onion name
nor an IP address (`isExcluded_answers`). Nothing in `get_peers`, `connect` or `task` catches
that `ValueError`, and the same holds for the `eval` of a popped entry, of a cached peer list
or of a published rule list, for the `int` calls at the start of a session, and for the errors
Redis answers a `SET` with an expire time that is not positive. A worker's step ends its
greenlet only at those points (`Moves.dead_from`). The master's greenlet ends the same way on an
entry of the `check` set that `eval` cannot unpack.
-/

namespace BitCrawler
set_option autoImplicit false
open Python

/-! ## `is_excluded` -/

/-- `is_excluded` raises (`none`) exactly on a text that is not an onion name and that
`ip_address` rejects. Otherwise it answers `False` on an onion name, and on an IP address it
answers `True` exactly when the address is private, a rule list is not loaded, `inet_pton`
rejects it in the family its `':'` selects, or a rule of that family matches. -/
theorem isExcluded_answers (lib : Lib) (r4 r6 : Option Rules) (address : String) :
    (isExcluded lib r4 r6 address = none ↔
      endsWith address ".onion" = false ∧ lib.isPrivate address = none) ∧
    (endsWith address ".onion" = true → isExcluded lib r4 r6 address = some false) ∧
    ∀ priv, endsWith address ".onion" = false → lib.isPrivate address = some priv →
      (isExcluded lib r4 r6 address = some true ↔
        priv = true ∨ r4 = none ∨ r6 = none ∨
          (if ':' ∈ address.data then lib.inetPton6 address else lib.inetPton4 address) = none ∨
          ∃ x4 x6 addr, r4 = some x4 ∧ r6 = some x6 ∧
            (if ':' ∈ address.data then lib.inetPton6 address else lib.inetPton4 address) =
              some addr ∧
            ∃ net ∈ (if ':' ∈ address.data then x6 else x4), addr &&& net.2 = net.1) := by
  refine ⟨?_, isExcluded_onion lib r4 r6 address, fun priv hon hp => ?_⟩
  · unfold isExcluded
    cases h : endsWith address ".onion" <;> simp [h]
  · simp only [isExcluded, hon, hp]
    cases priv
    · cases r4 <;> cases r6 <;> simp
      generalize (if ':' ∈ address.data then lib.inetPton6 address else lib.inetPton4 address) = pt
      cases pt <;> simp [List.any_eq_true]
    · simp

/-- `x` is neither an onion name nor an IP address: `ip_address` raises, with the lists loaded. -/
theorem name_raises : isExcluded demoLib (some []) (some []) "x" = none := rfl

/-! ## Where a worker's greenlet ends -/

section
variable (conf : Conf) (lib : Lib)

/-- A worker's step ends its greenlet only where an error escapes `task`: the `eval` of a
published rule list in the gate loop, the `eval` of a popped entry (`afterPop`), the start of
`connect` or the read of its cached peers, `get_peers` (`is_excluded` raised), or the start of
`ask_mempool`, or Redis refusing an expire time (`get_cached_peers`' `SET`, `connect`'s
pipeline). -/
theorem Moves.dead_from {s : Sys} {w : Nat} {p p' : Pc} {evs : List Event}
    (hm : Moves conf lib s w p p' evs) (hd : p' = .dead) (hp : p ≠ .dead) :
    p = .refresh4 ∨ p = .refresh6 ∨ (∃ v, p = .repush v) ∨ (∃ m, p = .spop m) ∨
      (∃ a pp sv, p = .handshake a pp sv) ∨ (∃ c, p = .fetch c) ∨
      (∃ a pp sv, p = .mempool a pp sv) ∨ ∃ c peers, p = .execute c peers := by
  cases hm with
  | idle _ _ => exact absurd hd hp
  | refresh4 => exact .inl rfl
  | refresh6 => exact .inr (.inl rfl)
  | repush v => exact .inr (.inr (.inl ⟨v, rfl⟩))
  | spop m v => exact .inr (.inr (.inr (.inl ⟨m, rfl⟩)))
  | handshake a pp sv => exact .inr (.inr (.inr (.inr (.inl ⟨a, pp, sv, rfl⟩))))
  | fetchRaise c => exact .inr (.inr (.inr (.inr (.inr (.inl ⟨c, rfl⟩)))))
  | mempool a pp sv => exact .inr (.inr (.inr (.inr (.inr (.inr (.inl ⟨a, pp, sv, rfl⟩))))))
  | executeRaise c peers => exact .inr (.inr (.inr (.inr (.inr (.inr (.inr ⟨c, peers, rfl⟩))))))
  | choose _ _ ask => cases ask <;> cases hd
  | gate _ _ h =>
    subst hd
    rcases h with h | h <;> cases h
  | claimCheck m _ _ _ _ _ h | cidr m _ _ _ _ h =>
    rcases h with ⟨-, rfl⟩ | ⟨-, rfl⟩
    · cases hd
    · cases m <;> cases hd
  | _ => cases hd

end

/-! ## Two errors that end a process -/

/-- The example's configuration with `include_checked` on. -/
def checkedConf : Conf := { demoConf with includeChecked := true }

/-- A master worker's greenlet ends in its first `get_peers`, on the peer `x`; and with
`include_checked`, the master's ends in the first `restart`, on a `check` entry that `eval`
cannot unpack. -/
theorem errors_end_greenlets :
    (run demoConf demoLib (demoInit 1 [])
      (bootSteps ["1.1.1.1"] ++ connectSteps 4 ++ [(.worker 0, badPeerEnv)])).1.pcOf 0 = .dead ∧
    (run checkedConf demoLib (Sys.init checkedConf demoLib 1 [] [("garbage", 0)])
      (bootSteps [] ++ List.replicate 7 (.master, quiet))).1.master = .dead := by
  decide

end BitCrawler
