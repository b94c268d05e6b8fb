import DOpenWrt.Lib.Run
import DOpenWrt.Oaf.AfConfig
import DOpenWrt.Oaf.FlowProto

/-!
# The conntrack mark

`app_filter_hook_gateway_handle` keeps what it knows of a flow in the 32 bits of the flow's conntrack mark: the
application in bits 0 to 15, whether the matched feature is to be ignored in bit 29, an unfinished client hello in
bit 30 and the decision to drop in bit 31. Configuration and packet are inputs of a step; the results of the functions
that do not touch the mark are part of the packet.
-/

namespace Oaf

abbrev Mark := BitVec 32

def nfDropBit : Mark := 0x80000000
def nfClientHelloBit : Mark := 0x40000000
def nfIgnoreBit : Mark := 0x20000000

def appidQuic : Mark := 10
def maxDpiPktNum : ℕ := 64

/-- The configuration at the moment a packet is handled. -/
structure Settings where
  gOafFilterEnable : ℤ
  gAppFilterMode : ℤ
  gDisableQuic : ℤ
  gUserMode : ℤ
  rules : AfRules
  jiffies : BitVec 32
  gUpdateJiffies : BitVec 32
  hz : BitVec 32

/-- What the hook reads of a feature. -/
structure FeatureNode where
  appId : BitVec 32
  ignore : ℤ

structure Packet where
  /-- `strstr(dev->name, g_lan_ifname)` -/
  lan : Bool
  /-- `parse_flow_proto` does not fail -/
  parsed : Bool
  l4Protocol : ℕ
  /-- `nf_ct_get` -/
  tracked : Bool
  confirmed : Bool
  /-- `find_af_client_by_ip`, `find_af_client_by_ipv6` -/
  client : Option Mac
  /-- the packets of both directions, if the flow is accounted -/
  totalPackets : Option ℕ
  /-- `af_match_quic` -/
  quic : Bool
  /-- no copy of the payload is needed, or `read_skb` makes one -/
  readable : Bool
  /-- `flow.client_hello` after `dpi_main` -/
  dpiMain : Bool → Bool
  /-- the node that `match_feature` finds -/
  feature : Option FeatureNode

inductive Verdict
  | accept
  | drop
  deriving DecidableEq

/-- The mark and the verdict; `written` is the application id that was written into the mark, if one was. -/
structure HookResult where
  mark : Mark
  verdict : Verdict
  written : Option (BitVec 32)

variable (cfg : Settings) (p : Packet) (client : Mac) (mark : Mark)

namespace Settings

def enabled : Bool := cfg.gOafFilterEnable ≠ 0

def matchAppFilterUser : Bool := cfg.rules.matchAppFilterUser cfg.gUserMode client

def matchAppFilterRule (appId : BitVec 32) : Except Fault Bool :=
  cfg.rules.matchAppFilterRule cfg.gUserMode cfg.gAppFilterMode appId.toInt client

end Settings

def checkAppActionChanged (action : Bool) (appId : BitVec 32) : Except Fault Bool :=
  if cfg.jiffies - cfg.gUpdateJiffies < 30 * cfg.hz then do
    let matched ← cfg.matchAppFilterRule client appId
    return if matched then !action else action
  else .ok false

/-- A mark that already names an application of the feature library. -/
def reevaluate : Except Fault HookResult := do
  let appId := mark &&& 0xffff
  let ctAction : Bool := mark &&& nfDropBit = nfDropBit
  let changed ← checkAppActionChanged cfg client ctAction appId
  let mark := if changed then if ctAction then mark &&& ~~~nfDropBit else mark ||| nfDropBit else mark
  let ctAction := if changed then !ctAction else ctAction
  return ⟨mark, if cfg.enabled && ctAction then .drop else .accept, none⟩

/-- `flow.app_id` after `match_feature`; it is 0 before. -/
def flowAppId : Option FeatureNode → BitVec 32
  | some feature => feature.appId
  | none => 0

/-- The first match: the id, the ignore bit and the decision go into the mark. -/
def firstMatch : Except Fault HookResult := do
  let appId := flowAppId p.feature
  let mark := (mark &&& 0xFFFF0000) ||| (appId &&& 0xFFFF)
  let mark := if p.feature.any (·.ignore ≠ 0) then mark ||| nfIgnoreBit else mark
  if cfg.enabled then do
    let matched ← cfg.matchAppFilterRule client appId
    return if matched then ⟨mark ||| nfDropBit, .drop, some appId⟩ else ⟨mark, .accept, some appId⟩
  else return ⟨mark, .accept, some appId⟩

/-- The handler from the packet count on. -/
def inspect (clientHello : Bool) : Except Fault HookResult :=
  match p.totalPackets with
  | none => .ok ⟨mark, .accept, none⟩
  | some totalPackets =>
    if totalPackets > maxDpiPktNum then .ok ⟨mark, .accept, none⟩
    else if cfg.enabled && cfg.gDisableQuic ≠ 0 && p.quic && cfg.matchAppFilterUser client then
      .ok ⟨((mark &&& 0xFFFF0000) ||| (appidQuic &&& 0xFFFF)) ||| nfDropBit, .drop, some appidQuic⟩
    else if !p.readable then .ok ⟨mark, .accept, none⟩
    else
      let mark := if p.dpiMain clientHello then mark ||| nfClientHelloBit else mark &&& ~~~nfClientHelloBit
      if p.feature.isNone && cfg.gAppFilterMode = 0 then .ok ⟨mark, .accept, none⟩
      else firstMatch cfg p client mark

def appFilterHookGatewayHandle : Except Fault HookResult :=
  if !p.lan then .ok ⟨mark, .accept, none⟩
  else if !p.parsed then .ok ⟨mark, .accept, none⟩
  else if !p.tracked then .ok ⟨mark, .accept, none⟩
  else if p.l4Protocol = ipprotoTcp && !p.confirmed then .ok ⟨mark, .accept, none⟩
  else
    match p.client with
    | none => .ok ⟨mark, .accept, none⟩
    | some client =>
      if mark ≠ 0 then
        let appId := mark &&& 0xffff
        let ctAction : Bool := mark &&& nfDropBit = nfDropBit
        if cfg.enabled && cfg.gDisableQuic ≠ 0 && appId = appidQuic && ctAction then .ok ⟨mark, .drop, none⟩
        else if cfg.enabled && cfg.gAppFilterMode ≠ 0 && ctAction then .ok ⟨mark, .drop, none⟩
        else if 1000 < appId && appId < 32000 then reevaluate cfg client mark
        else inspect cfg p client mark (mark &&& nfClientHelloBit ≠ 0)
      else inspect cfg p client mark false

end Oaf
