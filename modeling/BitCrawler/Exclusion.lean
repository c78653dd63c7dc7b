import BitCrawler.Config

/-! # The exclusion filter

`is_excluded(address)` in the order of its docstring: onion names are let through, private
addresses are excluded, then the address is excluded when the instance holds no rule list
(`Rules not ready`), when it does not parse in its family (`Bad address`), or when a rule of
its family matches. The rule lists come from `list_excluded_networks`, which reads one network
per line of a configuration or bogon text. The master publishes its lists under
`exclude-ipv4-networks` and `exclude-ipv6-networks` as `str(set)`, and each instance reads them
back with `eval` (`set_excluded_networks`); `rulesOf_rulesStr` is that round trip.
-/

namespace BitCrawler
set_option autoImplicit false
open Python

section
variable (lib : Lib)

/-- `is_excluded(address)` on an instance holding the rule lists `r4` and `r6` (`none` while
not loaded); `none` when `ip_address(address)` raises. -/
def isExcluded (r4 r6 : Option Rules) (address : String) : Option Bool :=
  if endsWith address ".onion" then some false
  else (lib.isPrivate address).map fun priv =>
    if priv then true
    else match r4, r6 with
      | some r4, some r6 =>
        match (if ':' ∈ address.data then lib.inetPton6 address else lib.inetPton4 address) with
        | none => true
        | some addr => (if ':' ∈ address.data then r6 else r4).any fun net => addr &&& net.2 == net.1
      | _, _ => true

/-- `line.split('#')[0].split(';')[0].strip()`. -/
def ruleLine (line : List Char) : String := ⟨strip (breakAt ';' (breakAt '#' line).1).1⟩

/-- `list_excluded_networks(txt, networks)`: the networks of the lines of `txt` that
`ip_network` parses, added into `networks`. -/
def listExcludedNetworks (txt : String) (networks : Rules) : Rules :=
  (splitAll '\n' (strip txt.data)).foldl (fun nets line =>
    match lib.ipNetwork (ruleLine line) with
    | some net => nets.insert net.pair
    | none => nets) networks

/-- A network is in `list_excluded_networks(txt, networks)` when it was in `networks` or is the
compiled pair of a line of `txt` that `ip_network` parses. -/
theorem mem_listExcludedNetworks (txt : String) (networks : Rules) (net : Nat × Nat) :
    net ∈ listExcludedNetworks lib txt networks ↔
      net ∈ networks ∨ ∃ line ∈ splitAll '\n' (strip txt.data),
        ∃ n, lib.ipNetwork (ruleLine line) = some n ∧ n.pair = net := by
  unfold listExcludedNetworks
  induction splitAll '\n' (strip txt.data) generalizing networks with
  | nil => simp
  | cons line lines ih =>
    rw [List.foldl_cons, ih]
    cases h : lib.ipNetwork (ruleLine line) with
    | none => simp [h]
    | some n =>
      simp only [h, List.mem_insert_iff, List.mem_cons, exists_eq_or_imp, Option.some.injEq,
        exists_eq_left', @eq_comm _ net]
      tauto

/-- The value `str(networks)` writes. -/
def rulesValue (r : Rules) : Value := .set (r.map fun net => .tuple [.int net.1, .int net.2])

/-- `str(networks)`: the text the master stores for a rule list. -/
def rulesStr (r : Rules) : String := (rulesValue r).str lib.printable

/-- A rule list back from the value `eval` reads. -/
def rulesOf : Value → Option Rules
  | .set xs => xs.mapM fun
    | .tuple [.int n, .int m] => some (n.toNat, m.toNat)
    | _ => none
  | _ => none

/-- The rule lists `update_excluded_networks` builds: the instance's static lists
(`CONF['exclude_ipv4_networks']`, ...) with the networks of every fetched text added in. -/
def updateRules (conf : Conf) (fetch : String → String) (v4 v6 : Rules) : Rules × Rules :=
  let v4 := conf.excludeIpv4BogonsFromUrls.foldl (fun v url => listExcludedNetworks lib (fetch url) v) v4
  let v6 := conf.excludeIpv6BogonsFromUrls.foldl (fun v url => listExcludedNetworks lib (fetch url) v) v6
  let v4 := if conf.excludeIpv4NetworksFromUrl ≠ "" then
    listExcludedNetworks lib (fetch conf.excludeIpv4NetworksFromUrl) v4 else v4
  let v6 := if conf.excludeIpv6NetworksFromUrl ≠ "" then
    listExcludedNetworks lib (fetch conf.excludeIpv6NetworksFromUrl) v6 else v6
  (v4, v6)

theorem rulesOf_rulesValue (r : Rules) : rulesOf (rulesValue r) = some r := by
  induction r with
  | nil => rfl
  | cons net r ih =>
    simp only [rulesValue, List.map_cons, rulesOf, List.mapM_cons] at ih ⊢
    rw [ih]
    simp

/-- What the master publishes for a rule list reads back as that list. -/
theorem rulesOf_rulesStr (r : Rules) : (eval (rulesStr lib r)).bind rulesOf = some r := by
  rw [rulesStr, eval_str, Option.some_bind, rulesOf_rulesValue]

theorem isExcluded_onion (r4 r6 : Option Rules) (address : String)
    (h : endsWith address ".onion" = true) : isExcluded lib r4 r6 address = some false := by
  simp [isExcluded, h]

/-- With a rule list missing, `is_excluded` fails closed: every non-onion address it does not
raise on is excluded. -/
theorem isExcluded_not_ready (r4 r6 : Option Rules) (address : String)
    (hr : r4 = none ∨ r6 = none) (h : endsWith address ".onion" = false) :
    isExcluded lib r4 r6 address = (lib.isPrivate address).map fun _ => true := by
  unfold isExcluded
  rw [if_neg (by simp [h])]
  congr
  funext priv
  rcases hr with rfl | rfl
  · cases priv <;> rfl
  · cases r4 <;> cases priv <;> rfl

end

end BitCrawler
