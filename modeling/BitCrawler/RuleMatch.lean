import BitCrawler.System.Run

/-! # What a compiled rule matches

`list_excluded_networks` stores a network as the pair `(int(network_address), int(netmask))`,
and `is_excluded` matches an address by AND-and-compare, `addr & netmask == network_address`.
For an address of the network's family this is membership: the address lies among the
network's `2 ^ (bits - prefixlen)` addresses (`and_netmask_eq_iff`, bit by bit). The rule list
of one family is read from a text without looking at the family of its lines, and the pair of
a network of the other family matches by the same test: `::/96` compiles to
`(0, 2^128 - 2^32)`, which every IPv4 address matches.
-/

namespace BitCrawler
set_option autoImplicit false
open Python

/-- `address in network`, for an address of the family `v6` with the integer value `x`: the
same family, and `x` among the network's addresses. -/
def IpNetwork.Contains (n : IpNetwork) (v6 : Bool) (x : Nat) : Prop :=
  v6 = n.v6 ∧ n.address ≤ x ∧ x < n.address + 2 ^ (addrBits n.v6 - n.prefixlen)

instance (n : IpNetwork) (v6 : Bool) (x : Nat) : Decidable (n.Contains v6 x) :=
  inferInstanceAs (Decidable (_ ∧ _ ∧ _))

/-! ## The netmask test -/

/-- The bits of a netmask: those from `k` up to the width `w`. -/
theorem testBit_two_pow_sub_two_pow {w k : Nat} (hk : k ≤ w) (j : Nat) :
    (2 ^ w - 2 ^ k).testBit j = (decide (k ≤ j) && decide (j < w)) := by
  have h : 2 ^ w - 2 ^ k = 2 ^ k * (2 ^ (w - k) - 1) := by
    rw [Nat.mul_sub_one, ← Nat.pow_add, Nat.add_sub_cancel' hk]
  rw [h, Nat.testBit_mul_pow_two, Nat.testBit_two_pow_sub_one]
  by_cases hj : k ≤ j <;> simp [hj]
  omega

/-- Masking a `w`-bit value with the top `w - k` bits clears its low `k` bits. -/
theorem and_two_pow_sub_two_pow {w k x : Nat} (hk : k ≤ w) (hx : x < 2 ^ w) :
    x &&& (2 ^ w - 2 ^ k) = 2 ^ k * (x / 2 ^ k) := by
  apply Nat.eq_of_testBit_eq
  intro j
  rw [Nat.testBit_and, testBit_two_pow_sub_two_pow hk, Nat.testBit_mul_pow_two,
    ← Nat.shiftRight_eq_div_pow, Nat.testBit_shiftRight]
  by_cases hj : k ≤ j
  · by_cases hw : j < w
    · simp [hj, hw, Nat.add_sub_cancel' hj]
    · have : x.testBit j = false :=
        Nat.testBit_lt_two_pow (lt_of_lt_of_le hx (Nat.pow_le_pow_right (by decide) (by omega)))
      simp [hj, hw, Nat.add_sub_cancel' hj, this]
  · simp [hj]

/-- The AND-and-compare test of a compiled network, on an address of its width: the address
lies among the network's `2 ^ (bits - prefixlen)` addresses. -/
theorem and_netmask_eq_iff (n : IpNetwork) {x : Nat} (hx : x < 2 ^ addrBits n.v6) :
    x &&& n.netmask = n.address ↔
      n.address ≤ x ∧ x < n.address + 2 ^ (addrBits n.v6 - n.prefixlen) := by
  obtain ⟨q, hq⟩ := Nat.dvd_of_mod_eq_zero n.host_bits
  rw [IpNetwork.netmask, and_two_pow_sub_two_pow (Nat.sub_le _ _) hx, hq]
  set m := 2 ^ (addrBits n.v6 - n.prefixlen)
  have hm : 0 < m := Nat.two_pow_pos _
  rw [Nat.mul_right_inj hm.ne']
  constructor
  · rintro rfl
    exact ⟨Nat.mul_div_le x m, Nat.mul_succ m _ ▸ Nat.lt_mul_div_succ x hm⟩
  · rintro ⟨h1, h2⟩
    exact Nat.div_eq_of_lt_le (by rwa [Nat.mul_comm]) (by rw [Nat.succ_mul, Nat.mul_comm]; exact h2)

theorem contains_iff_and_netmask (n : IpNetwork) {v6 : Bool} {x : Nat} (hx : x < 2 ^ addrBits v6) :
    n.Contains v6 x ↔ v6 = n.v6 ∧ x &&& n.netmask = n.address := by
  unfold IpNetwork.Contains
  constructor
  · rintro ⟨rfl, h⟩
    exact ⟨rfl, (and_netmask_eq_iff n hx).2 h⟩
  · rintro ⟨rfl, h⟩
    exact ⟨rfl, (and_netmask_eq_iff n hx).1 h⟩

/-! ## A rule text's matches -/

/-- An address matches a rule of `list_excluded_networks(txt)` exactly when it passes the test
of a network `ip_network` parses from a line of `txt`, of either family. -/
theorem matches_listExcludedNetworks (lib : Lib) (txt : String) (x : Nat) :
    (∃ net ∈ listExcludedNetworks lib txt [], x &&& net.2 = net.1) ↔
      ∃ line ∈ splitAll '\n' (strip txt.data), ∃ n, lib.ipNetwork (ruleLine line) = some n ∧
        x &&& n.netmask = n.address := by
  simp only [mem_listExcludedNetworks, List.not_mem_nil, false_or]
  constructor
  · rintro ⟨_, ⟨line, hl, n, hn, rfl⟩, h⟩
    exact ⟨line, hl, n, hn, h⟩
  · rintro ⟨line, hl, n, hn, h⟩
    exact ⟨n.pair, ⟨line, hl, n, hn, rfl⟩, h⟩

/-- Every address inside a network of a rule text matches the text's rule list; and when every
network the text parses to is of the address's family, only those do. -/
theorem excluded_iff_in_network (lib : Lib) (txt : String) (v6 : Bool) (x : Nat)
    (hx : x < 2 ^ addrBits v6) :
    ((∃ line ∈ splitAll '\n' (strip txt.data), ∃ n, lib.ipNetwork (ruleLine line) = some n ∧
        n.Contains v6 x) →
      ∃ net ∈ listExcludedNetworks lib txt [], x &&& net.2 = net.1) ∧
    ((∀ line ∈ splitAll '\n' (strip txt.data), ∀ n, lib.ipNetwork (ruleLine line) = some n →
        n.v6 = v6) →
      (∃ net ∈ listExcludedNetworks lib txt [], x &&& net.2 = net.1) →
        ∃ line ∈ splitAll '\n' (strip txt.data), ∃ n, lib.ipNetwork (ruleLine line) = some n ∧
          n.Contains v6 x) := by
  rw [matches_listExcludedNetworks]
  constructor
  · rintro ⟨line, hl, n, hn, hc⟩
    exact ⟨line, hl, n, hn, ((contains_iff_and_netmask n hx).1 hc).2⟩
  · rintro hfam ⟨line, hl, n, hn, h⟩
    exact ⟨line, hl, n, hn, (contains_iff_and_netmask n hx).2 ⟨(hfam line hl n hn).symm, h⟩⟩

theorem bogon_rule_contains :
    ((∃ line ∈ splitAll '\n' (strip "2.2.2.2/32".data), ∃ n,
        demoLib.ipNetwork (ruleLine line) = some n ∧ n.Contains false 0x02020202) →
      ∃ net ∈ listExcludedNetworks demoLib "2.2.2.2/32" [], 0x02020202 &&& net.2 = net.1) ∧
    ((∀ line ∈ splitAll '\n' (strip "2.2.2.2/32".data), ∀ n,
        demoLib.ipNetwork (ruleLine line) = some n → n.v6 = false) →
      (∃ net ∈ listExcludedNetworks demoLib "2.2.2.2/32" [], 0x02020202 &&& net.2 = net.1) →
        ∃ line ∈ splitAll '\n' (strip "2.2.2.2/32".data), ∃ n,
          demoLib.ipNetwork (ruleLine line) = some n ∧ n.Contains false 0x02020202) :=
  excluded_iff_in_network demoLib "2.2.2.2/32" false 0x02020202 (by decide)

/-- An IPv6 line in an IPv4 rule text: `::/96` compiles to `(0, 2^128 - 2^32)`, which
`1.1.1.1` matches, though no IPv4 network of the text contains it. -/
theorem ipv6_rule_matches_ipv4 :
    (∃ net ∈ listExcludedNetworks demoLib "::/96" [], 0x01010101 &&& net.2 = net.1) ∧
      ¬ ∃ line ∈ splitAll '\n' (strip "::/96".data), ∃ n,
        demoLib.ipNetwork (ruleLine line) = some n ∧ n.Contains false 0x01010101 := by
  refine ⟨by decide, ?_⟩
  rintro ⟨line, hl, n, hn, hv, -⟩
  have hlines : splitAll '\n' (strip "::/96".data) = ["::/96".data] := by decide
  rw [hlines, List.mem_singleton] at hl
  subst hl
  have hfam : (demoLib.ipNetwork (ruleLine "::/96".data)).map IpNetwork.v6 = some true := by decide
  rw [hn, Option.map_some', Option.some.injEq, ← hv] at hfam
  exact Bool.false_ne_true hfam

end BitCrawler
