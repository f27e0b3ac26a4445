import GameServer.Common.GameConf
import GameServer.Common.SnowFlake

/-!
# The server's configuration

`InitGameSvrConf` of `gameconf.h` reads the ids of the server and three
addresses.  A port comes from the file as a `long`, is kept in a `short`, and is
compared there with limits that a `short` cannot reach.  Where a port is used,
the `short` is taken as an `unsigned short` again.

`portUsed_iff` says for which numbers the port that is configured is the port
that is used: the check is right up to 32767, it refuses the ports above, and
it accepts every number whose low 16 bits look like a good one.
-/

namespace GameServer
namespace Gamesvr

open Lib Conf

/-- The bytes of a string of the source. -/
def textOf (literal : String) : Text :=
  literal.toList.map fun c => UInt8.ofNat c.toNat

/-! ## Addresses -/

/-- `E_NETWORK_SERVER_IP_PORT_RANGE_INVALID`. -/
def portRangeInvalid : Int := 1000

/-- `E_NETWORK_SERVER_IP_PORT_RANGE_MAX`. -/
def portRangeMax : Int := 65536

/-- `NETWORK_SERVER_IP_ADDRESS_LEN`. -/
def serverIPAddressLen : Nat := 64

/-- `ST_ServerIPInfo`. -/
structure ServerIPInfo where
  wServerPort : Int16
  achServerIP : List UInt8
deriving Repr, DecidableEq

namespace ServerIPInfo

/-- The constructor. -/
def construct : ServerIPInfo :=
  ⟨0, List.replicate serverIPAddressLen 0⟩

/-- `ST_ServerIPInfo::Init`, with the value it returns; `none` is the null
pointer. -/
def init (info : ServerIPInfo) (wPort : Int16) :
    Option Text → ServerIPInfo × Bool
  | none => (info, false)
  | some pchServerIP =>
    -- compared as integers
    if wPort.toInt ≤ portRangeInvalid ∨ wPort.toInt ≥ portRangeMax then
      (info, false)
    else
      (⟨wPort, strncpy serverIPAddressLen pchServerIP⟩, true)

/-- The value that `_InitListener` and `Connector::Connect` pass to `htons`. -/
def portOf (info : ServerIPInfo) : UInt16 :=
  info.wServerPort.toUInt16

end ServerIPInfo

/-- The three addresses of the configuration. -/
inductive Address where
  | mainServer
  | proxyServer
  | proxyConnect
deriving Repr, DecidableEq

/-- The section an address is configured in. -/
def Address.sect : Address → Text
  | .mainServer => textOf "main_server"
  | .proxyServer => textOf "proxy_server"
  | .proxyConnect => textOf "proxy_connect"

/-- `GameSvrConf`, with what it initialises: the generator of sequence ids,
and the logger by the level and the console flag it is started with. -/
structure GameSvrConf where
  conf : GameConf
  serverIPInfo : Address → ServerIPInfo
  dwHostID : UInt32
  dwGameSvrID : UInt32
  uuid : SnowFlakeUUID
  logger : Option (Text × Bool)

section Init

variable (strtol : Text → Int × Nat)

/-- The lines of `InitGameSvrConf` for one address: what `Init` makes of it.
The number is converted to `short`. -/
def initAddress (conf : GameConf) (address : Address) (info : ServerIPInfo) :
    Option (ServerIPInfo × Bool) := do
  let port ← conf.getInteger strtol address.sect (textOf "port") 0
  let sServerIP ← conf.get address.sect (textOf "host") []
  return info.init (Int16.ofInt port) (some sServerIP)

/-- What may not return: the process can exit, with a status. -/
abbrev Exits := ExceptT Nat Option

/-- `LOGCRITICAL`: on a thread that is not bound to the buffered log it ends the
process. -/
def logCritical (isMainThread : Bool) : Exits Unit :=
  if isMainThread then pure () else throw 2

/-- The address that `InitGameSvrConf` goes on with.  If `ST_ServerIPInfo::Init`
refuses it, it calls `LOGCRITICAL`; the value it returns is not looked at. -/
def checkAddress (isMainThread : Bool) (conf : GameConf) (address : Address)
    (info : ServerIPInfo) : Exits ServerIPInfo := do
  let result ← (initAddress strtol conf address info : Option _)
  unless result.2 do logCritical isMainThread
  return result.1

/-- `InitGameSvrConf`, on a thread that is bound to the log or not. -/
def initGameSvrConf (isMainThread : Bool) (svr : GameSvrConf) (exist : Bool)
    (file : Option Text) : Exits GameSvrConf := do
  let (ok, conf) ← (svr.conf.init exist file : Option _)
  if ok then
    let hostID ← (conf.getInteger strtol (textOf "main") (textOf "host_id") 0 :
      Option _)
    let gameSvrID ← (conf.getInteger strtol (textOf "main")
      (textOf "gamesvr_id") 0 : Option _)
    let dwHostID := UInt32.ofInt hostID
    let dwGameSvrID := UInt32.ofInt gameSvrID
    let main ← checkAddress strtol isMainThread conf .mainServer
      (svr.serverIPInfo .mainServer)
    let proxy ← checkAddress strtol isMainThread conf .proxyServer
      (svr.serverIPInfo .proxyServer)
    let connect ← checkAddress strtol isMainThread conf .proxyConnect
      (svr.serverIPInfo .proxyConnect)
    let serverIPInfo : Address → ServerIPInfo
      | .mainServer => main
      | .proxyServer => proxy
      | .proxyConnect => connect
    let sLoggerLevel ← (conf.get (textOf "log") (textOf "level") [] : Option _)
    let bConsole ← (conf.getBoolean (textOf "log") (textOf "console") false :
      Option _)
    return ⟨conf, serverIPInfo, dwHostID, dwGameSvrID,
      { svr.uuid with dwHostID := dwHostID, dwGameSvrID := dwGameSvrID },
      some (sLoggerLevel, bConsole)⟩
  else
    logCritical isMainThread
    return { svr with conf := conf }

/-- The call returns the value. -/
def Exits.Returns {α : Type} (x : Exits α) (a : α) : Prop :=
  x.run = some (.ok a)

theorem Exits.returns_bind_iff {α β : Type} {x : Exits α} {f : α → Exits β}
    {b : β} : (x >>= f).Returns b ↔ ∃ a, x.Returns a ∧ (f a).Returns b := by
  unfold Returns
  rw [ExceptT.run_bind]
  cases x.run with
  | none => simp
  | some r => cases r <;> simp

theorem Exits.returns_lift_iff {α : Type} {x : Option α} {a : α} :
    (liftM x : Exits α).Returns a ↔ x = some a := by
  cases x <;> simp [Returns]

theorem Exits.returns_pure_iff {α : Type} {x a : α} : (pure x : Exits α).Returns a ↔ x = a := by
  simp [Returns]

/-- A server that goes on has accepted the address, unless it is bound to the
log. -/
theorem accepted_of_checkAddress {isMainThread : Bool} {conf : GameConf}
    {address : Address} {info after : ServerIPInfo}
    (h : (checkAddress strtol isMainThread conf address info).Returns after) :
    ∃ accepted, initAddress strtol conf address info =
      some (after, accepted) ∧ (accepted = true ∨ isMainThread = true) := by
  obtain ⟨⟨result, accepted⟩, hinit, h⟩ := Exits.returns_bind_iff.mp h
  rw [Exits.returns_lift_iff] at hinit
  cases accepted with
  | true =>
    cases Exits.returns_pure_iff.mp h
    exact ⟨true, hinit, .inl rfl⟩
  | false =>
    -- past a refusal only a thread that is bound to the log goes on
    obtain ⟨u, hlog, h⟩ := Exits.returns_bind_iff.mp h
    cases Exits.returns_pure_iff.mp h
    refine ⟨false, hinit, .inr ?_⟩
    by_contra hbound
    simp [logCritical, hbound, Exits.Returns] at hlog

/-- After `InitGameSvrConf` each address is what `Init` has made of it, and none
was refused unless the thread is bound to the log. -/
theorem serverIPInfo_of_initGameSvrConf {isMainThread : Bool}
    {svr after : GameSvrConf} {exist : Bool} {file : Option Text}
    {conf : GameConf} (hconf : svr.conf.init exist file = some (true, conf))
    (hinit : (initGameSvrConf strtol isMainThread svr exist file).Returns after)
    (address : Address) :
    ∃ accepted, initAddress strtol conf address (svr.serverIPInfo address) =
        some (after.serverIPInfo address, accepted) ∧
      (accepted = true ∨ isMainThread = true) := by
  rw [initGameSvrConf, Exits.returns_bind_iff] at hinit
  obtain ⟨result, hresult, hinit⟩ := hinit
  rw [Exits.returns_lift_iff, hconf] at hresult
  cases hresult
  simp only [if_true, Exits.returns_bind_iff, Exits.returns_lift_iff,
    Exits.returns_pure_iff] at hinit
  obtain ⟨hostID, -, gameSvrID, -, main, hmain, proxy, hproxy, connect, hconnect,
    level, -, console, -, rfl⟩ := hinit
  cases address with
  | mainServer => exact accepted_of_checkAddress strtol hmain
  | proxyServer => exact accepted_of_checkAddress strtol hproxy
  | proxyConnect => exact accepted_of_checkAddress strtol hconnect

/-! ## The port -/

/-- The value of a `short` that a number is converted to. -/
theorem toInt_ofInt_eq (port : Int) :
    (Int16.ofInt port).toInt =
      if port % 65536 < 32768 then port % 65536 else port % 65536 - 65536 := by
  rw [Int16.toInt_ofInt, Int.bmod]
  rfl

/-- The same as an `unsigned short`. -/
theorem toNat_portOf (port : Int) (achServerIP : List UInt8) :
    ((ServerIPInfo.portOf ⟨Int16.ofInt port, achServerIP⟩).toNat : Int) = port % 65536 := by
  have hbits : (ServerIPInfo.portOf ⟨Int16.ofInt port, achServerIP⟩).toNat =
      (BitVec.ofInt 16 port).toNat := rfl
  rw [hbits, BitVec.toNat_ofInt]
  omega

/-- What `Init` does with a converted number. -/
theorem init_ofInt (info : ServerIPInfo) (port : Int) (sServerIP : Text) :
    info.init (Int16.ofInt port) (some sServerIP) =
      if 1000 < port % 65536 ∧ port % 65536 < 32768 then
        (⟨Int16.ofInt port, strncpy serverIPAddressLen sServerIP⟩, true)
      else
        (info, false) := by
  have hshort := toInt_ofInt_eq port
  rw [ServerIPInfo.init, portRangeInvalid, portRangeMax]
  split_ifs at hshort ⊢ with hlow hrefused hgood hgood
  all_goals first | rfl | omega

/-- The configured port is the port used: an address is accepted exactly if
the number is within the range of ports, and then this number is what is given
to `htons`. -/
def PortUsed (conf : GameConf) (address : Address) (info : ServerIPInfo)
    (port : Int) : Prop :=
  ∃ after accepted,
    initAddress strtol conf address info = some (after, accepted) ∧
      (accepted = true ↔ portRangeInvalid < port ∧ port < portRangeMax) ∧
      (accepted = true → (after.portOf.toNat : Int) = port)

/-- What the lines of `InitGameSvrConf` do with an address. -/
theorem initAddress_eq {conf : GameConf} {address : Address} {port : Int}
    {sServerIP : Text}
    (hport : conf.getInteger strtol address.sect (textOf "port") 0 = some port)
    (hhost : conf.get address.sect (textOf "host") [] = some sServerIP)
    (info : ServerIPInfo) :
    initAddress strtol conf address info =
      some (info.init (Int16.ofInt port) (some sServerIP)) := by
  rw [initAddress, hport, hhost]
  rfl

/-- The port is used as configured exactly if it is a port below 32768, or no
port at all and its low 16 bits are none below 32768 either. -/
theorem portUsed_iff {conf : GameConf} {address : Address} {port : Int}
    {sServerIP : Text}
    (hport : conf.getInteger strtol address.sect (textOf "port") 0 = some port)
    (hhost : conf.get address.sect (textOf "host") [] = some sServerIP)
    (info : ServerIPInfo) :
    PortUsed strtol conf address info port ↔ 1000 < port ∧ port < 32768 ∨
        ¬ (1000 < port ∧ port < 65536) ∧ ¬ (1000 < port % 65536 ∧ port % 65536 < 32768) := by
  have haddress := initAddress_eq strtol hport hhost info
  rw [init_ofInt] at haddress
  constructor
  · rintro ⟨after, accepted, hinit, haccepted, hused⟩
    rw [haddress] at hinit
    split_ifs at hinit with hgood
    · cases hinit
      have hrange := haccepted.mp rfl
      have hsame := hused rfl
      rw [toNat_portOf] at hsame
      omega
    · cases hinit
      have hrange : ¬ (portRangeInvalid < port ∧ port < portRangeMax) :=
        fun h => Bool.false_ne_true (haccepted.mpr h)
      exact .inr ⟨hrange, hgood⟩
  · intro hcond
    split_ifs at haddress with hgood
    · -- the number is its own low half
      have hself : 1000 < port ∧ port < 32768 :=
        hcond.resolve_right fun h => h.2 hgood
      refine ⟨_, _, haddress, iff_of_true rfl ?_, fun _ => ?_⟩
      · rw [portRangeInvalid, portRangeMax]
        omega
      · rw [toNat_portOf]
        omega
    · refine ⟨_, _, haddress, iff_of_false Bool.false_ne_true ?_,
        fun h => absurd h Bool.false_ne_true⟩
      rw [portRangeInvalid, portRangeMax]
      omega

/-- Every entry of this configuration is `8080`. -/
theorem portUsed_iff_8080 :
    PortUsed (fun text => (8080, text.length))
      ⟨fun _ => some [[56, 48, 56, 48]]⟩ .mainServer .construct 8080 :=
  (portUsed_iff (fun text => (8080, text.length))
    (rfl : GameConf.getInteger _ ⟨fun _ => some [[56, 48, 56, 48]]⟩ _ _ 0 = _)
    rfl .construct).mpr (.inl (by decide))

/-- A port of the upper half is refused, and a number beyond the range is taken
for the port 2000. -/
theorem port_40000_refused :
    (initAddress (fun text => (40000, text.length))
        ⟨fun _ => some [[52, 48, 48, 48, 48]]⟩ .mainServer .construct =
        some (.construct, false) ∧
      ¬ PortUsed (fun text => (40000, text.length))
        ⟨fun _ => some [[52, 48, 48, 48, 48]]⟩ .mainServer .construct 40000) ∧
    (∃ after, initAddress (fun text => (67536, text.length))
        ⟨fun _ => some [[54, 55, 53, 51, 54]]⟩ .mainServer .construct =
        some (after, true) ∧ after.portOf = 2000) := by
  have hinit : ∀ (port : Int) (digits : Text), 0 < digits.length →
      initAddress (fun text => (port, text.length)) ⟨fun _ => some [digits]⟩
        .mainServer .construct =
      some (ServerIPInfo.construct.init (Int16.ofInt port) (some digits)) := by
    intro port digits hdigits
    refine initAddress_eq _ ?_ rfl _
    simp [GameConf.getInteger, GameConf.get, List.length_pos_iff.mp hdigits]
  refine ⟨⟨?_, ?_⟩, ?_⟩
  · rw [hinit _ _ (by decide), init_ofInt]
    rfl
  · rintro ⟨after, accepted, haddress, haccepted, -⟩
    rw [hinit _ _ (by decide), init_ofInt] at haddress
    cases haddress
    exact Bool.false_ne_true (haccepted.mpr (by decide))
  · rw [hinit _ _ (by decide), init_ofInt]
    exact ⟨_, rfl, rfl⟩

end Init

end Gamesvr
end GameServer
