/-
  `EQPacket` and the client it follows.

  The user asks for an address, for the next client or for another device; a client that was not
  asked for is detected on the first frame to or from a world server. `inet_aton` is a parameter,
  the answer of `gethostbyname` comes with the request. A frame is its memory, as in the packet
  format.

  Proved:
  * `client_followed`: which address the daemon takes for the client's, after any run.
  * `request_restarts`: behind a request nothing is left of the sessions before it. The daemon goes
    on as one that was started with what was asked for.
-/
import ShoweqDaemon.Capture.Frames
import ShoweqDaemon.Spawn.Item
import ShoweqDaemon.Lib.Numeral
import ShoweqDaemon.Lib.Run

namespace ShoweqDaemon.Capture

open Audit Decoder Machine
open Spawns (QString)

/-! ## Addresses -/

/-- Byte `k` of an address as it lies in memory, in decimal. -/
def octet (addr : UInt32) (k : ℕ) : QString := Nat.toDigits 10 (addr.toNat / 256 ^ k % 256)

/-- `inet_ntoa`: the four bytes of an address in decimal, with dots between them. -/
def inet_ntoa (addr : UInt32) : QString := ['.'].intercalate ((List.range 4).map (octet addr))

/-- The address by which the user asks for the next client that is seen. -/
def AUTOMATIC_CLIENT_IP : QString := "127.0.0.0".toList

/-- The same address as a number, in the order of the network. -/
def automaticAddr : UInt32 := 0x0000007f

/-- `inet_aton` reads what `inet_ntoa` prints, whatever else it reads. -/
structure Inet where
  inet_aton : QString → Option UInt32
  aton_ntoa : ∀ addr, inet_aton (inet_ntoa addr) = some addr

theorem ntoa_automatic : inet_ntoa automaticAddr = AUTOMATIC_CLIENT_IP := by decide

theorem Inet.ntoa_inj (inet : Inet) {a b : UInt32} (h : inet_ntoa a = inet_ntoa b) : a = b := by
  have ha := inet.aton_ntoa a
  rw [h, inet.aton_ntoa b] at ha
  exact (Option.some.inj ha).symm

theorem Inet.ntoa_eq_automatic (inet : Inet) {a : UInt32} :
    inet_ntoa a = AUTOMATIC_CLIENT_IP ↔ a = automaticAddr := by
  rw [← ntoa_automatic]
  exact ⟨inet.ntoa_inj, congrArg inet_ntoa⟩

/-- Four numbers in decimal, as far as `inet_aton` takes them so. -/
def readDotted (text : QString) : Option UInt32 :=
  match (text.splitOn '.').map (Numeral.digits 10) with
  | [some b0, some b1, some b2, some b3] =>
      if b0 < 256 ∧ b1 < 256 ∧ b2 < 256 ∧ b3 < 256 then
        some (UInt32.ofNat (b0 + 256 * b1 + 256 ^ 2 * b2 + 256 ^ 3 * b3))
      else none
  | _ => none

theorem digits_octet (addr : UInt32) (k : ℕ) :
    Numeral.digits 10 (octet addr k) = some (addr.toNat / 256 ^ k % 256) := by
  unfold octet
  rw [← Numeral.printPadded_zero]
  exact Numeral.digits_printPadded (by omega) (by omega) 0 _

theorem readDotted_ntoa (addr : UInt32) : readDotted (inet_ntoa addr) = some addr := by
  have hfree : ∀ part ∈ (List.range 4).map (octet addr), '.' ∉ part := by
    intro part hpart hdot
    obtain ⟨k, -, rfl⟩ := List.mem_map.mp hpart
    exact absurd (Nat.isDigit_of_mem_toDigits (by omega) (by omega) hdot) (by decide)
  have hparts : (List.range 4).map (Numeral.digits 10 ∘ octet addr) =
      [some (addr.toNat / 256 ^ 0 % 256), some (addr.toNat / 256 ^ 1 % 256),
        some (addr.toNat / 256 ^ 2 % 256), some (addr.toNat / 256 ^ 3 % 256)] := by
    simp only [List.range_succ, List.range_zero, List.nil_append, List.map_cons, List.map_nil,
      List.cons_append, Function.comp_apply, digits_octet]
  have hsum : addr.toNat / 256 ^ 0 % 256 + 256 * (addr.toNat / 256 ^ 1 % 256) +
      256 ^ 2 * (addr.toNat / 256 ^ 2 % 256) + 256 ^ 3 * (addr.toNat / 256 ^ 3 % 256) =
        addr.toNat := by
    have hlt := addr.toNat_lt
    omega
  unfold readDotted
  rw [inet_ntoa, List.splitOn_intercalate '.' hfree (by simp), List.map_map, hparts]
  dsimp only
  have hlt (k : ℕ) : addr.toNat / 256 ^ k % 256 < 256 := Nat.mod_lt _ (by omega)
  rw [if_pos ⟨hlt 0, hlt 1, hlt 2, hlt 3⟩, hsum, UInt32.ofNat_toNat]

/-- An `inet_aton` that reads the four decimal numbers and nothing else. -/
def Inet.dotted : Inet where
  inet_aton := readDotted
  aton_ntoa := readDotted_ntoa

/-! ## The capture filter -/

/-- What `setFilter` builds the filter of libpcap for. -/
inductive AddressType where
  | DEFAULT_ADDRESS_TYPE
  | IP_ADDRESS_TYPE
  | MAC_ADDRESS_TYPE
  deriving DecidableEq, Repr

/-- The text that `setFilter` compiles: the ports of the game, all of them or those around a
    session, and the client by its address or its card where one was given. -/
def filterText (hostname : Option QString) (address_type : AddressType)
    (zone_port client_port : UInt16) : QString :=
  let ports : QString :=
    if client_port = 0 ∧ zone_port = 0 then "udp[0:2] > 1024 and udp[2:2] > 1024".toList
    else
      "udp and (portrange 9000-9015 or port 9876 or port ".toList ++
        Nat.toDigits 10 (if client_port ≠ 0 then client_port else zone_port).toNat ++ [')']
  let host (words : String) : QString :=
    match hostname with
    | some name =>
        if name ≠ [] ∧ name ≠ AUTOMATIC_CLIENT_IP then words.toList ++ name else []
    | none => []
  let address : QString :=
    match address_type with
    | .IP_ADDRESS_TYPE => host " and host "
    | .MAC_ADDRESS_TYPE => host " and ether host "
    | .DEFAULT_ADDRESS_TYPE => []
  ports ++ address ++ " and ether proto 0x800 and not broadcast and not multicast".toList

/-! ## Requests -/

/-- The sources of packets: the network, or a file of one of two formats. -/
inductive Playback where
  | PLAYBACK_OFF
  | PLAYBACK_FORMAT_SEQ
  | PLAYBACK_FORMAT_TCPDUMP
  deriving DecidableEq, Repr

/-- The members of `EQPacket` that the requests go through; `m_filter` is the capture thread's. -/
structure Monitor extends EQPacket where
  m_device : QString
  m_ip : QString
  m_mac : QString
  m_playbackPackets : Playback
  m_filter : QString

/-- `EQPacketStream::reset`, as far as packets are handled by it. -/
def EQPacketStream.reset (s : EQPacketStream) : EQPacketStream :=
  { s with m_sessionClientPort := 0, m_sessionClientIP := 0, m_decoders := fun _ => none }

namespace Monitor

section
variable (inet : Inet) (host : Option UInt32) (m : Monitor)

/-- `validateIP`: the address that was asked for, as a number, by its name or as the one that stands
    for any client. `host` is what `gethostbyname` answers. -/
def validateIP : Monitor :=
  let ia : UInt32 :=
    if m.m_ip = [] ∨ m.m_ip = AUTOMATIC_CLIENT_IP then automaticAddr
    else ((inet.inet_aton m.m_ip).or host).getD automaticAddr
  { m with
    m_client_addr := ia
    m_ip := inet_ntoa ia
    m_detectingClient := inet_ntoa ia = AUTOMATIC_CLIENT_IP }

/-- `EQPacket::resetEQPacket`: the four streams begin anew. -/
def resetEQPacket : Monitor :=
  { m with m_streams := fun id => EQPacketStream.reset (m.m_streams id) }

/-- `setFilter`, where there is a capture. -/
def setFilter (hostname : Option QString) (address_type : AddressType) : Monitor :=
  if m.m_playbackPackets = .PLAYBACK_FORMAT_SEQ then m
  else { m with m_filter := filterText hostname address_type 0 0 }

/-- `PacketCaptureThread::start`, for the card or for the address. -/
def start : Monitor :=
  if m.m_mac.length = 17 then
    { m with m_filter := filterText (some m.m_mac) .MAC_ADDRESS_TYPE 0 0 }
  else { m with m_filter := filterText (some m.m_ip) .IP_ADDRESS_TYPE 0 0 }

/-- `EQPacket::monitorIPClient`: the capture goes over to an address that the user gave. -/
def monitorIPClient (ip : QString) : Monitor :=
  let m := (validateIP inet host { m with m_ip := ip }).resetEQPacket
  m.setFilter (some m.m_ip) .IP_ADDRESS_TYPE

/-- The members that `monitorNextClient` sets. -/
def awaitClient : Monitor :=
  { m with
    m_detectingClient := true, m_ip := AUTOMATIC_CLIENT_IP, m_client_addr := automaticAddr }

/-- `EQPacket::monitorNextClient`: the capture waits for the next client. -/
def monitorNextClient : Monitor :=
  m.awaitClient.resetEQPacket.setFilter none .DEFAULT_ADDRESS_TYPE

/-- `EQPacket::monitorDevice`: a capture from the network starts again on the device; the address
    stays. -/
def monitorDevice (dev : QString) : Monitor :=
  let m := { m with m_device := dev }
  if m.m_playbackPackets ≠ .PLAYBACK_OFF then m
  else (validateIP inet host m).resetEQPacket.start

variable {m} in
theorem setFilter_live (h : m.m_playbackPackets ≠ .PLAYBACK_FORMAT_SEQ)
    (hostname : Option QString) (address_type : AddressType) :
    m.setFilter hostname address_type =
      { m with m_filter := filterText hostname address_type 0 0 } := if_neg h

variable {m} in
theorem start_address (h : m.m_mac.length ≠ 17) :
    m.start = { m with m_filter := filterText (some m.m_ip) .IP_ADDRESS_TYPE 0 0 } := if_neg h

variable {inet host m} in
theorem monitorDevice_live (h : m.m_playbackPackets = .PLAYBACK_OFF) (dev : QString) :
    m.monitorDevice inet host dev =
      (validateIP inet host { m with m_device := dev }).resetEQPacket.start :=
  if_neg (not_not.mpr h)

variable {inet host m} in
theorem monitorDevice_playback (h : m.m_playbackPackets ≠ .PLAYBACK_OFF) (dev : QString) :
    m.monitorDevice inet host dev = { m with m_device := dev } := if_pos h

end

/-- The direction of each stream. -/
def direction : EQStreamID → Dir
  | .client2world => .DIR_Client
  | .world2client => .DIR_Server
  | .client2zone => .DIR_Client
  | .zone2client => .DIR_Server

/-- The members as the constructor's list and body set them, before the address is looked at. -/
def unstarted (device ip mac : QString) (playbackPackets : Playback) : Monitor where
  m_detectingClient := false
  m_client_addr := 0
  m_streams id :=
    { m_dir := direction id, m_packetCount := 0, m_sessionClientPort := 0,
      m_sessionClientIP := 0, m_decoders := fun _ => none, buffers := Scratch.empty }
  m_device := device
  m_ip := if ip = [] ∧ mac = [] then AUTOMATIC_CLIENT_IP else ip
  m_mac := mac
  m_playbackPackets := playbackPackets
  m_filter := []

/-- The constructor; a preference names the file that is played back. -/
def construct (inet : Inet) (host : Option UInt32) (device ip mac : QString)
    (playbackPackets : Playback) : Monitor :=
  let m := validateIP inet host (unstarted device ip mac playbackPackets)
  if playbackPackets = .PLAYBACK_OFF then m.start else m

end Monitor

/-! ## Runs -/

/-- The client's end of a frame to or from a world server. -/
def shownClient (mem : Memory) : Option UInt32 :=
  if isWorldPort (srcPort mem) then some ((packetOf mem).getIPv4DestN mem).val
  else if isWorldPort (dstPort mem) then some ((packetOf mem).getIPv4SourceN mem).val
  else none

namespace Monitor

/-- `dispatchPacket`, with `m_ip`: `getIPv4DestA` and `getIPv4SourceA` print the address. -/
def dispatchPacket (z : Inflater) (m : Monitor) (mem : Memory) (size : ℕ) :
    Monitor × Option Handled :=
  let handled := (Capture.dispatchPacket z mem m.toEQPacket size).val
  ({ m with
      toEQPacket := handled.1
      m_ip := if m.m_detectingClient then ((shownClient mem).map inet_ntoa).getD m.m_ip
        else m.m_ip },
    handled.2)

/-- What can happen to the capture: a frame, or a request of the user. -/
inductive Event where
  | dispatchPacket (mem : Memory) (size : ℕ)
  | monitorIPClient (ip : QString) (host : Option UInt32)
  | monitorNextClient
  | monitorDevice (dev : QString) (host : Option UInt32)

section
variable (inet : Inet) (z : Inflater)

/-- The capture after an event: a frame, or one of the three requests that start it anew. -/
def step (m : Monitor) : Event → Monitor
  | .dispatchPacket mem size => (m.dispatchPacket z mem size).1
  | .monitorIPClient ip host => m.monitorIPClient inet host ip
  | .monitorNextClient => m.monitorNextClient
  | .monitorDevice dev host => m.monitorDevice inet host dev

/-- The message that a decoder hands on. -/
def message (m : Monitor) : Event → Option AppPacket
  | .dispatchPacket mem size => (m.dispatchPacket z mem size).2.bind (·.dispatchPacket)
  | _ => none

end

/-! ## The client -/

theorem detectClient_val (mem : Memory) (e : EQPacket) :
    (detectClient mem (packetOf mem) e).val =
      if e.m_detectingClient then
        match shownClient mem with
        | some a => { e with m_client_addr := a, m_detectingClient := false }
        | none => e
      else e := by
  cases hd : e.m_detectingClient <;> cases hs : isWorldPort (srcPort mem) <;>
    cases ht : isWorldPort (dstPort mem) <;>
    simp [detectClient, shownClient, hd, hs, ht]

/-- Only detection changes the client. -/
theorem dispatchPacket_client (z : Inflater) (m : Monitor) (mem : Memory) (size : ℕ) :
    (m.dispatchPacket z mem size).1.m_client_addr =
        (if m.m_detectingClient then (shownClient mem).getD m.m_client_addr
          else m.m_client_addr) ∧
      (m.dispatchPacket z mem size).1.m_detectingClient =
        (m.m_detectingClient && (shownClient mem).isNone) := by
  have hclient (e : EQPacket) :
      (dispatch mem (packetOf mem) z e).val.1.m_client_addr =
          (detectClient mem (packetOf mem) e).val.m_client_addr ∧
        (dispatch mem (packetOf mem) z e).val.1.m_detectingClient =
          (detectClient mem (packetOf mem) e).val.m_detectingClient := by
    simp only [dispatch, Noted.val_bind, Noted.val_ite]
    split <;> exact ⟨rfl, rfl⟩
  have hdispatch := hclient m.toEQPacket
  rw [detectClient_val] at hdispatch
  refine ⟨hdispatch.1.trans ?_, hdispatch.2.trans ?_⟩
  · cases m.m_detectingClient <;> cases shownClient mem <;> rfl
  · cases hd : m.m_detectingClient <;> cases shownClient mem <;> simp [hd]

/-- The address a request for `ip` comes down to, none for the next client. -/
def asked (inet : Inet) (ip : QString) (host : Option UInt32) : Option UInt32 :=
  if ip = [] ∨ ip = AUTOMATIC_CLIENT_IP then none
  else ((inet.inet_aton ip).or host).bind fun a => if a = automaticAddr then none else some a

theorem asked_ne_automatic (inet : Inet) (ip : QString) (host : Option UInt32) :
    asked inet ip host ≠ some automaticAddr := by
  unfold asked
  split
  · exact fun h => nomatch h
  · cases (inet.inet_aton ip).or host with
    | none => exact fun h => nomatch h
    | some a =>
        rw [Option.bind_some]
        by_cases ha : a = automaticAddr
        · rw [if_pos ha]
          exact fun h => nomatch h
        · rw [if_neg ha]
          exact fun h => ha (Option.some.inj h)

/-- What an event asks for, if it asks. -/
def Event.asks (inet : Inet) : Event → Option (Option UInt32)
  | .monitorIPClient ip host => some (asked inet ip host)
  | .monitorNextClient => some none
  | _ => none

/-- The client that a frame shows, when it shows one. -/
def Event.shown : Event → Option UInt32
  | .dispatchPacket mem _ => shownClient mem
  | _ => none

/-- The client is `found`, or it is still waited for. -/
structure Follows (found : Option UInt32) (m : Monitor) : Prop where
  addr : m.m_client_addr = found.getD automaticAddr
  detecting : m.m_detectingClient = found.isNone
  ip : m.m_ip = inet_ntoa m.m_client_addr

section
variable {inet : Inet} {z : Inflater} {m : Monitor}

theorem validateIP_follows (inet : Inet) (host : Option UInt32) (m : Monitor) :
    (validateIP inet host m).Follows (asked inet m.m_ip host) := by
  have haddr : (validateIP inet host m).m_client_addr =
      (asked inet m.m_ip host).getD automaticAddr := by
    show (if _ then _ else _) = _
    unfold asked
    by_cases hauto : m.m_ip = [] ∨ m.m_ip = AUTOMATIC_CLIENT_IP
    · rw [if_pos hauto, if_pos hauto]
      rfl
    · rw [if_neg hauto, if_neg hauto]
      cases (inet.inet_aton m.m_ip).or host with
      | none => rfl
      | some a =>
          rw [Option.bind_some]
          by_cases ha : a = automaticAddr
          · rw [if_pos ha]
            exact ha
          · rw [if_neg ha]
  refine ⟨haddr, ?_, rfl⟩
  show decide (inet_ntoa (validateIP inet host m).m_client_addr = AUTOMATIC_CLIENT_IP) = _
  rw [haddr]
  cases hasked : asked inet m.m_ip host with
  | none => exact decide_eq_true ntoa_automatic
  | some a =>
      exact decide_eq_false fun ha => asked_ne_automatic inet m.m_ip host
        (hasked.trans (congrArg some (inet.ntoa_eq_automatic.mp ha)))

theorem Follows.of_client {m' : Monitor} {found : Option UInt32} (h : m.Follows found)
    (haddr : m'.m_client_addr = m.m_client_addr)
    (hdetecting : m'.m_detectingClient = m.m_detectingClient) (hip : m'.m_ip = m.m_ip) :
    m'.Follows found :=
  ⟨haddr.trans h.addr, hdetecting.trans h.detecting, by rw [hip, haddr, h.ip]⟩

theorem Follows.setFilter {found : Option UInt32} (h : m.Follows found)
    (hostname : Option QString) (address_type : AddressType) :
    (m.setFilter hostname address_type).Follows found := by
  unfold Monitor.setFilter
  split
  · exact h
  · exact h.of_client rfl rfl rfl

theorem Follows.start {found : Option UInt32} (h : m.Follows found) : m.start.Follows found := by
  unfold Monitor.start
  split
  · exact h.of_client rfl rfl rfl
  · exact h.of_client rfl rfl rfl

/-- What a device change makes of the address: it is read again as it was printed. -/
theorem asked_again {found : Option UInt32} (hfound : found ≠ some automaticAddr)
    (host : Option UInt32) :
    asked inet (inet_ntoa (found.getD automaticAddr)) host = found := by
  unfold asked
  cases found with
  | none => exact if_pos (Or.inr ntoa_automatic)
  | some a =>
      have ha : a ≠ automaticAddr := fun h => hfound (congrArg some h)
      have hne : ¬ (inet_ntoa a = [] ∨ inet_ntoa a = AUTOMATIC_CLIENT_IP) := by
        refine not_or.mpr ⟨?_, fun h => ha (inet.ntoa_eq_automatic.mp h)⟩
        unfold inet_ntoa
        simp [List.range_succ]
      rw [Option.getD_some, if_neg hne, inet.aton_ntoa, Option.some_or]
      simp [ha]

/-- A request for a client begins anew, whatever was before. -/
theorem step_asks {e : Event} {ask : Option UInt32} (h : e.asks inet = some ask) :
    (m.step inet z e).Follows ask := by
  cases e with
  | dispatchPacket mem size => exact absurd h (by simp [Event.asks])
  | monitorIPClient ip host =>
      obtain rfl := Option.some.inj h
      refine Follows.setFilter ?_ _ _
      exact (validateIP_follows inet host { m with m_ip := ip }).of_client rfl rfl rfl
  | monitorNextClient =>
      obtain rfl := Option.some.inj h
      exact Follows.setFilter ⟨rfl, rfl, ntoa_automatic.symm⟩ _ _
  | monitorDevice dev host => exact absurd h (by simp [Event.asks])

/-- Every other event leaves the client that was found; while none is, the first one shown is it. -/
theorem step_follows {found : Option UInt32} (h : m.Follows found)
    (hfound : found ≠ some automaticAddr) {e : Event} (hasks : e.asks inet = none) :
    (m.step inet z e).Follows (found.or e.shown) := by
  cases e with
  | dispatchPacket mem size =>
      obtain ⟨haddr, hdetecting⟩ := dispatchPacket_client z m mem size
      have hip : (m.dispatchPacket z mem size).1.m_ip =
          if m.m_detectingClient then ((shownClient mem).map inet_ntoa).getD m.m_ip
          else m.m_ip := rfl
      rw [h.detecting] at haddr hdetecting hip
      refine ⟨haddr.trans ?_, hdetecting.trans ?_, hip.trans ?_⟩
      · rw [h.addr]
        cases found <;> rfl
      · cases found <;> simp [Event.shown]
      · show _ = inet_ntoa (m.dispatchPacket z mem size).1.m_client_addr
        rw [haddr, h.ip]
        cases found <;> cases shownClient mem <;> rfl
  | monitorIPClient ip host => exact absurd hasks (by simp [Event.asks])
  | monitorNextClient => exact absurd hasks (by simp [Event.asks])
  | monitorDevice dev host =>
      have hshown : found.or (Event.monitorDevice dev host).shown = found := Option.or_none
      rw [hshown]
      show (m.monitorDevice inet host dev).Follows found
      by_cases hoff : m.m_playbackPackets = .PLAYBACK_OFF
      · have hagain : asked inet m.m_ip host = found := by
          rw [h.ip, h.addr]
          exact asked_again hfound host
        have hvalid := validateIP_follows inet host { m with m_device := dev }
        rw [show asked inet ({ m with m_device := dev } : Monitor).m_ip host = found from hagain]
          at hvalid
        have hreset : (validateIP inet host { m with m_device := dev }).resetEQPacket.Follows
            found := hvalid.of_client rfl rfl rfl
        rw [monitorDevice_live hoff]
        exact hreset.start
      · rw [monitorDevice_playback hoff]
        exact h.of_client rfl rfl rfl

theorem run_follows {found : Option UInt32} (h : m.Follows found)
    (hfound : found ≠ some automaticAddr) {es : List Event}
    (hasks : ∀ e ∈ es, e.asks inet = none) (hshown : ∀ e ∈ es, e.shown ≠ some automaticAddr) :
    (es.foldl (step inet z) m).Follows (found.or (es.findSome? Event.shown)) := by
  induction es generalizing m found with
  | nil =>
      rw [List.findSome?_nil, Option.or_none]
      exact h
  | cons e es ih =>
      have hnext := step_follows (z := z) h hfound (hasks e List.mem_cons_self)
      have hfound' : found.or e.shown ≠ some automaticAddr := by
        cases found with
        | none => exact hshown e List.mem_cons_self
        | some a => exact hfound
      have hrest := ih hnext hfound' (fun e' he' => hasks e' (List.mem_cons_of_mem e he'))
        fun e' he' => hshown e' (List.mem_cons_of_mem e he')
      rw [Option.or_assoc] at hrest
      rw [List.findSome?_cons]
      cases hfirst : e.shown with
      | none =>
          rw [hfirst] at hrest
          exact hrest
      | some a =>
          rw [hfirst] at hrest
          exact hrest

end

/-- After any run the client is the one that was asked for last; and if none was, it is the one at
    the other end of the first frame to or from a world server since then. Frames of all others,
    and changes of the device, do not change it. -/
theorem client_followed (inet : Inet) (z : Inflater) (m : Monitor) (e : Event)
    (ask : Option UInt32) (hask : e.asks inet = some ask) (es : List Event)
    (hasks : ∀ e' ∈ es, e'.asks inet = none)
    (hshown : ∀ e' ∈ es, e'.shown ≠ some automaticAddr) :
    let found := ask.or (es.findSome? Event.shown)
    let m' := (e :: es).foldl (step inet z) m
    m'.m_client_addr = found.getD automaticAddr ∧ m'.m_detectingClient = found.isNone ∧
      m'.m_ip = inet_ntoa m'.m_client_addr := by
  have hne : ask ≠ some automaticAddr := by
    cases e with
    | dispatchPacket mem size => exact absurd hask (by simp [Event.asks])
    | monitorIPClient ip host =>
        obtain rfl := Option.some.inj hask
        exact asked_ne_automatic inet ip host
    | monitorNextClient =>
        obtain rfl := Option.some.inj hask
        exact fun h => nomatch h
    | monitorDevice dev host => exact absurd hask (by simp [Event.asks])
  have hrun := run_follows (z := z) (step_asks (m := m) (z := z) hask) hne hasks hshown
  exact ⟨hrun.addr, hrun.detecting, hrun.ip⟩

/-- A frame of 10.1.2.3:9000 to 10.0.0.5, and one of 10.0.0.7 to a zone server. -/
def loginFrames : List Memory :=
  [fun i => [0x45, 0, 0, 28, 0, 0, 0, 0, 64, 17, 0, 0, 10, 1, 2, 3, 10, 0, 0, 5,
      0x23, 0x28, 0x04, 0xd2, 0, 8, 0, 0].getD i 0,
    fun i => [0x45, 0, 0, 28, 0, 0, 0, 0, 64, 17, 0, 0, 10, 0, 0, 7, 10, 1, 2, 3,
      0x04, 0xd2, 0x1b, 0x58, 0, 8, 0, 0].getD i 0]

theorem none_length_le (_inp : List UInt8) (cap : ℕ) (out : List UInt8)
    (h : none = some out) : out.length ≤ cap :=
  absurd h.symm (Option.some_ne_none out)

/-- No inflater is asked. -/
def idleInflater : Inflater where
  inflate _ _ := none
  inflate_length_le := none_length_le
  written _ out := out
  written_length _ _ := rfl
  written_take _ _ _ h := absurd h.symm (Option.some_ne_none _)

/-- The first frame shows the client, 10.0.0.5. -/
theorem client_followed_login :
    let m := construct Inet.dotted none [] [] [] .PLAYBACK_OFF
    let es := Event.monitorNextClient :: loginFrames.map (Event.dispatchPacket · 28)
    (es.foldl (step Inet.dotted idleInflater) m).m_client_addr = 0x0500000a := by
  intro m es
  have h := client_followed Inet.dotted idleInflater m .monitorNextClient none rfl
    (loginFrames.map (Event.dispatchPacket · 28)) (by simp [Event.asks]) (by decide)
  exact h.1.trans (by decide)

/-! ## Behind a request -/

/-- What a stream does with packets is the same: only its count and its scratch buffers differ. -/
structure AlikeStream (s s' : EQPacketStream) : Prop where
  dir : s'.m_dir = s.m_dir
  port : s'.m_sessionClientPort = s.m_sessionClientPort
  addr : s'.m_sessionClientIP = s.m_sessionClientIP
  decoders : s'.m_decoders = s.m_decoders

theorem handlePacket_alike (z : Inflater) {s s' : EQPacketStream} (h : AlikeStream s s')
    (packet : Decoder.EQUDPIPPacketFormat) :
    AlikeStream (s.handlePacket z packet).1 (s'.handlePacket z packet).1 ∧
      (s'.handlePacket z packet).2.dispatchPacket = (s.handlePacket z packet).2.dispatchPacket := by
  obtain ⟨dir, count, port, addr, decoders, buffers⟩ := s
  obtain ⟨dir', count', port', addr', decoders', buffers'⟩ := s'
  obtain ⟨hdir, hport, haddr, hdecoders⟩ := h
  dsimp only at hdir hport haddr hdecoders
  subst hdir hport haddr hdecoders
  have hdiscards : EQPacketStream.discards ⟨dir', count' + 1, port', addr', decoders', buffers'⟩
      packet = EQPacketStream.discards ⟨dir', count + 1, port', addr', decoders', buffers⟩
        packet := rfl
  unfold EQPacketStream.handlePacket
  dsimp only
  rw [hdiscards]
  split
  · exact ⟨⟨rfl, rfl, rfl, rfl⟩, rfl⟩
  · refine ⟨⟨rfl, rfl, rfl, rfl⟩, ?_⟩
    cases (process ((decoders' (tupleKey packet.getSourcePort packet.getDestPort)).getD reset)
      packet.getUDPPayload).msg with
    | none => rfl
    | some msg => exact (emitShared_snd z buffers' msg).trans (emitShared_snd z buffers msg).symm

theorem val_handlePacket (z : Inflater) (mem : Memory) (packet : EQUDPIPPacketFormat)
    (s : EQPacketStream) :
    (handlePacket mem packet z s).val = s.handlePacket z (packet.seen mem) := by
  simp only [handlePacket, Noted.val_bind, Noted.val_ite, Noted.val_pure, ite_self]

/-- The client as `detectClient` leaves it depends on the client alone, and so does the stream. -/
theorem dispatch_alike (z : Inflater) (mem : Memory) {e e' : EQPacket}
    (haddr : e'.m_client_addr = e.m_client_addr)
    (hdetecting : e'.m_detectingClient = e.m_detectingClient)
    (hstreams : ∀ id, AlikeStream (e.m_streams id) (e'.m_streams id)) :
    let r := (dispatch mem (packetOf mem) z e).val
    let r' := (dispatch mem (packetOf mem) z e').val
    r'.1.m_client_addr = r.1.m_client_addr ∧
      r'.1.m_detectingClient = r.1.m_detectingClient ∧
      (∀ id, AlikeStream (r.1.m_streams id) (r'.1.m_streams id)) ∧
      r'.2.bind (·.dispatchPacket) = r.2.bind (·.dispatchPacket) := by
  intro r r'
  have hdetected : (detectClient mem (packetOf mem) e').val =
      { (detectClient mem (packetOf mem) e).val with m_streams := e'.m_streams } := by
    rw [detectClient_val, detectClient_val, hdetecting]
    cases e.m_detectingClient <;> cases shownClient mem <;> simp [← haddr, ← hdetecting]
  have hstreams' := detectClient_streams mem (packetOf mem) e
  have hr : r = (dispatch mem (packetOf mem) z e).val := rfl
  have hr' : r' = (dispatch mem (packetOf mem) z e').val := rfl
  simp only [dispatch, Noted.val_bind, Noted.val_ite, Noted.val_pure] at hr hr'
  rw [hdetected] at hr'
  by_cases hdrop : (dropped mem (packetOf mem)).val = true
  · rw [if_pos hdrop] at hr hr'
    rw [hr, hr']
    refine ⟨rfl, rfl, fun id => ?_, rfl⟩
    rw [hstreams']
    exact hstreams id
  · rw [if_neg hdrop] at hr hr'
    generalize hd : (detectClient mem (packetOf mem) e).val = d at hr hr' hstreams'
    have hroute : (route mem (packetOf mem) { d with m_streams := e'.m_streams }).val =
        (route mem (packetOf mem) d).val := rfl
    rw [hroute] at hr'
    generalize (route mem (packetOf mem) d).val = streamId at hr hr'
    have hhandle := handlePacket_alike z (hstreams streamId) ((packetOf mem).seen mem)
    rw [val_handlePacket] at hr hr'
    rw [hr, hr', hstreams']
    refine ⟨rfl, rfl, fun id => ?_, hhandle.2⟩
    by_cases hid : id = streamId
    · subst hid
      simp only [Function.update_self]
      exact hhandle.1
    · simp only [Function.update_of_ne hid]
      exact hstreams id

/-- Two that go on in the same way. -/
structure Alike (m m' : Monitor) : Prop where
  addr : m'.m_client_addr = m.m_client_addr
  detecting : m'.m_detectingClient = m.m_detectingClient
  device : m'.m_device = m.m_device
  ip : m'.m_ip = m.m_ip
  mac : m'.m_mac = m.m_mac
  playback : m'.m_playbackPackets = m.m_playbackPackets
  filter : m'.m_filter = m.m_filter
  streams : ∀ id, AlikeStream (m.m_streams id) (m'.m_streams id)

section
variable (inet : Inet) {z : Inflater} {m m' : Monitor}

theorem reset_alike {s s' : EQPacketStream} (h : s'.m_dir = s.m_dir) :
    AlikeStream (EQPacketStream.reset s) (EQPacketStream.reset s') := ⟨h, rfl, rfl, rfl⟩

theorem validateIP_congr (host : Option UInt32) (hip : m'.m_ip = m.m_ip) :
    (validateIP inet host m').m_client_addr = (validateIP inet host m).m_client_addr ∧
      (validateIP inet host m').m_detectingClient = (validateIP inet host m).m_detectingClient ∧
      (validateIP inet host m').m_ip = (validateIP inet host m).m_ip := by
  unfold validateIP
  dsimp only
  rw [hip]
  exact ⟨rfl, rfl, rfl⟩

theorem Alike.validate (h : m.Alike m') (host : Option UInt32) :
    (validateIP inet host m).resetEQPacket.Alike (validateIP inet host m').resetEQPacket := by
  obtain ⟨haddr, hdetecting, hip⟩ := validateIP_congr inet host h.ip
  exact ⟨haddr, hdetecting, h.device, hip, h.mac, h.playback, h.filter,
    fun id => reset_alike (h.streams id).dir⟩

theorem Alike.setFilter (h : m.Alike m') {hostname hostname' : Option QString}
    (hname : hostname' = hostname) (address_type : AddressType) :
    (m.setFilter hostname address_type).Alike (m'.setFilter hostname' address_type) := by
  unfold Monitor.setFilter
  by_cases hseq : m.m_playbackPackets = .PLAYBACK_FORMAT_SEQ
  · rw [if_pos hseq, if_pos (h.playback.trans hseq)]
    exact h
  · rw [if_neg hseq, if_neg fun hseq' => hseq (h.playback.symm.trans hseq'), hname]
    exact ⟨h.addr, h.detecting, h.device, h.ip, h.mac, h.playback, rfl, h.streams⟩

theorem Alike.start (h : m.Alike m') : m.start.Alike m'.start := by
  have hcard := congrArg List.length h.mac
  unfold Monitor.start
  by_cases hlong : m.m_mac.length = 17
  · rw [if_pos hlong, if_pos (hcard.trans hlong)]
    exact ⟨h.addr, h.detecting, h.device, h.ip, h.mac, h.playback, by rw [h.mac], h.streams⟩
  · rw [if_neg hlong, if_neg fun hlong' => hlong (hcard.symm.trans hlong')]
    exact ⟨h.addr, h.detecting, h.device, h.ip, h.mac, h.playback, by rw [h.ip], h.streams⟩

theorem step_alike (h : m.Alike m') (e : Event) :
    (m.step inet z e).Alike (m'.step inet z e) ∧ m'.message z e = m.message z e := by
  cases e with
  | dispatchPacket mem size =>
      obtain ⟨haddr, hdetecting, hstreams, hmessage⟩ :=
        dispatch_alike z mem h.addr h.detecting h.streams
      refine ⟨⟨haddr, hdetecting, h.device, ?_, h.mac, h.playback, h.filter, hstreams⟩, hmessage⟩
      show (if _ then _ else _) = (if _ then _ else _)
      rw [h.detecting, h.ip]
  | monitorIPClient ip host =>
      have hset : Alike { m with m_ip := ip } { m' with m_ip := ip } :=
        ⟨h.addr, h.detecting, h.device, rfl, h.mac, h.playback, h.filter, h.streams⟩
      have hvalid := hset.validate inet host
      exact ⟨hvalid.setFilter (congrArg some hvalid.ip) _, rfl⟩
  | monitorNextClient =>
      refine ⟨Alike.setFilter ?_ rfl _, rfl⟩
      exact ⟨rfl, rfl, h.device, rfl, h.mac, h.playback, h.filter,
        fun id => reset_alike (h.streams id).dir⟩
  | monitorDevice dev host =>
      have hset : Alike { m with m_device := dev } { m' with m_device := dev } :=
        ⟨h.addr, h.detecting, rfl, h.ip, h.mac, h.playback, h.filter, h.streams⟩
      refine ⟨?_, rfl⟩
      show (m.monitorDevice inet host dev).Alike (m'.monitorDevice inet host dev)
      by_cases hoff : m.m_playbackPackets = .PLAYBACK_OFF
      · rw [monitorDevice_live hoff, monitorDevice_live (h.playback.trans hoff)]
        exact (hset.validate inet host).start
      · rw [monitorDevice_playback hoff,
          monitorDevice_playback fun hoff' => hoff (h.playback.symm.trans hoff')]
        exact hset

theorem run_alike (h : m.Alike m') (es : List Event) :
    outputs (step inet z) (message z) m' es = outputs (step inet z) (message z) m es ∧
      (es.foldl (step inet z) m).Alike (es.foldl (step inet z) m') := by
  induction es generalizing m m' with
  | nil => exact ⟨rfl, h⟩
  | cons e es ih =>
      obtain ⟨hnext, hmessage⟩ := step_alike inet (z := z) h e
      obtain ⟨houtputs, hlast⟩ := ih hnext
      exact ⟨congrArg₂ List.cons hmessage houtputs, hlast⟩

end

/-! ### As at a start -/

/-- What no event of a live capture changes. -/
structure Settled (mac : QString) (m : Monitor) : Prop where
  mac : m.m_mac = mac
  live : m.m_playbackPackets = .PLAYBACK_OFF
  dir : ∀ id, (m.m_streams id).m_dir = direction id

section
variable (inet : Inet) {z : Inflater} {m : Monitor} {mac : QString}

theorem Settled.setFilter (h : m.Settled mac) (hostname : Option QString)
    (address_type : AddressType) : (m.setFilter hostname address_type).Settled mac := by
  unfold Monitor.setFilter
  split
  · exact h
  · exact ⟨h.mac, h.live, h.dir⟩

theorem Settled.start (h : m.Settled mac) : m.start.Settled mac := by
  unfold Monitor.start
  split
  · exact ⟨h.mac, h.live, h.dir⟩
  · exact ⟨h.mac, h.live, h.dir⟩

theorem construct_settled (host : Option UInt32) (device ip mac : QString) :
    (construct inet host device ip mac .PLAYBACK_OFF).Settled mac := by
  have hvalid : (validateIP inet host (unstarted device ip mac .PLAYBACK_OFF)).Settled mac :=
    ⟨rfl, rfl, fun _ => rfl⟩
  exact hvalid.start

theorem handlePacket_dir (z : Inflater) (s : EQPacketStream)
    (packet : Decoder.EQUDPIPPacketFormat) : (s.handlePacket z packet).1.m_dir = s.m_dir := by
  unfold EQPacketStream.handlePacket
  dsimp only
  split <;> rfl

theorem dispatch_dir (z : Inflater) (mem : Memory) (e : EQPacket) (id : EQStreamID) :
    ((dispatch mem (packetOf mem) z e).val.1.m_streams id).m_dir = (e.m_streams id).m_dir := by
  simp only [dispatch, Noted.val_bind, Noted.val_ite]
  split
  · exact congrArg (fun streams => (streams id).m_dir) (detectClient_streams mem _ e)
  · simp only [Noted.val_pure, detectClient_streams]
    generalize (route mem (packetOf mem) (detectClient mem (packetOf mem) e).val).val = streamId
    by_cases hid : id = streamId
    · subst hid
      rw [Function.update_self, val_handlePacket]
      exact handlePacket_dir z _ _
    · rw [Function.update_of_ne hid]

theorem step_settled (m : Monitor) (e : Event) (h : m.Settled mac) :
    (m.step inet z e).Settled mac := by
  cases e with
  | dispatchPacket mem size =>
      exact ⟨h.mac, h.live, fun id => (dispatch_dir z mem m.toEQPacket id).trans (h.dir id)⟩
  | monitorIPClient ip host =>
      have hreset : (validateIP inet host { m with m_ip := ip }).resetEQPacket.Settled mac :=
        ⟨h.mac, h.live, h.dir⟩
      exact hreset.setFilter _ _
  | monitorNextClient =>
      have hreset : m.awaitClient.resetEQPacket.Settled mac := ⟨h.mac, h.live, h.dir⟩
      exact hreset.setFilter _ _
  | monitorDevice dev host =>
      show (m.monitorDevice inet host dev).Settled mac
      rw [monitorDevice_live h.live]
      exact Settled.start ⟨h.mac, h.live, h.dir⟩

/-- The daemon that would be started with what the event asks for. -/
def Event.started (inet : Inet) (m : Monitor) : Event → Option Monitor
  | .dispatchPacket _ _ => none
  | .monitorIPClient ip host =>
      some (construct inet host m.m_device ip m.m_mac .PLAYBACK_OFF)
  | .monitorNextClient =>
      some (construct inet none m.m_device AUTOMATIC_CLIENT_IP m.m_mac .PLAYBACK_OFF)
  | .monitorDevice dev host =>
      some (construct inet host dev m.m_ip m.m_mac .PLAYBACK_OFF)

theorem validateIP_automatic (host : Option UInt32) (m : Monitor) :
    validateIP inet host { m with m_ip := AUTOMATIC_CLIENT_IP } = m.awaitClient := by
  unfold validateIP awaitClient
  simp [ntoa_automatic]

/-- An address that is not given is taken as the automatic one. -/
theorem validateIP_given (host : Option UInt32) (mac : QString) {n : Monitor}
    (h : n.m_ip = if m.m_ip = [] ∧ mac = [] then AUTOMATIC_CLIENT_IP else m.m_ip) :
    (validateIP inet host n).m_client_addr = (validateIP inet host m).m_client_addr ∧
      (validateIP inet host n).m_detectingClient = (validateIP inet host m).m_detectingClient ∧
      (validateIP inet host n).m_ip = (validateIP inet host m).m_ip := by
  by_cases hnone : m.m_ip = [] ∧ mac = []
  · rw [if_pos hnone] at h
    unfold validateIP
    simp [h, hnone.1]
  · rw [if_neg hnone] at h
    exact validateIP_congr inet host h

/-- Reset and with the same address, a capture is as at its start. -/
theorem reset_started (h : m.Settled mac) (hmac : mac.length ≠ 17) (host : Option UInt32) :
    ((validateIP inet host m).resetEQPacket.start).Alike
      (construct inet host m.m_device m.m_ip mac .PLAYBACK_OFF) := by
  obtain ⟨haddr, hdetecting, hip⟩ := validateIP_given inet host mac
    (n := unstarted m.m_device m.m_ip mac .PLAYBACK_OFF) rfl
  have hcard : (validateIP inet host m).resetEQPacket.m_mac.length ≠ 17 := by
    rw [show (validateIP inet host m).resetEQPacket.m_mac = m.m_mac from rfl, h.mac]
    exact hmac
  have hcard' : (validateIP inet host (unstarted m.m_device m.m_ip mac .PLAYBACK_OFF)).m_mac.length
      ≠ 17 := hmac
  show Alike _ (validateIP inet host (unstarted m.m_device m.m_ip mac .PLAYBACK_OFF)).start
  rw [start_address hcard, start_address hcard']
  refine ⟨haddr, hdetecting, rfl, hip, h.mac.symm, h.live.symm, ?_, fun id => ?_⟩
  · exact congrArg (fun ip => filterText (some ip) .IP_ADDRESS_TYPE 0 0) hip
  · exact ⟨(h.dir id).symm, rfl, rfl, rfl⟩

/-- A request leaves what a start makes. -/
theorem step_started (h : m.Settled mac) (hmac : mac.length ≠ 17) {r : Event} {fresh : Monitor}
    (hr : r.started inet m = some fresh) : (m.step inet z r).Alike fresh := by
  obtain rfl := h.mac
  have hlive {m' : Monitor} (h : m'.Settled m.m_mac) :
      m'.m_playbackPackets ≠ .PLAYBACK_FORMAT_SEQ := by
    rw [h.live]
    exact fun hseq => nomatch hseq
  have hcard {m' : Monitor} (h : m'.Settled m.m_mac) : m'.m_mac.length ≠ 17 := by rwa [h.mac]
  cases r with
  | dispatchPacket mem size => exact absurd hr.symm (Option.some_ne_none fresh)
  | monitorIPClient ip host =>
      obtain rfl := Option.some.inj hr
      have hset : Settled m.m_mac { m with m_ip := ip } := ⟨h.mac, h.live, h.dir⟩
      have hreset : (validateIP inet host { m with m_ip := ip }).resetEQPacket.Settled m.m_mac :=
        ⟨h.mac, h.live, h.dir⟩
      have hstart := reset_started inet hset hmac host
      rw [start_address (hcard hreset)] at hstart
      show ((validateIP inet host { m with m_ip := ip }).resetEQPacket.setFilter _ _).Alike _
      rw [setFilter_live (hlive hreset)]
      exact hstart
  | monitorNextClient =>
      obtain rfl := Option.some.inj hr
      have hset : Settled m.m_mac { m with m_ip := AUTOMATIC_CLIENT_IP } := ⟨rfl, h.live, h.dir⟩
      have hstart := reset_started inet hset hmac none
      have hfilter : filterText (some AUTOMATIC_CLIENT_IP) .IP_ADDRESS_TYPE 0 0 =
          filterText none .DEFAULT_ADDRESS_TYPE 0 0 := by decide
      have hreset : m.awaitClient.resetEQPacket.Settled m.m_mac := ⟨rfl, h.live, h.dir⟩
      rw [validateIP_automatic, start_address (hcard hreset)] at hstart
      show (m.awaitClient.resetEQPacket.setFilter _ _).Alike _
      rw [setFilter_live (hlive hreset), ← hfilter]
      exact hstart
  | monitorDevice dev host =>
      obtain rfl := Option.some.inj hr
      have hset : Settled m.m_mac { m with m_device := dev } := ⟨h.mac, h.live, h.dir⟩
      show (m.monitorDevice inet host dev).Alike _
      rw [monitorDevice_live h.live]
      exact reset_started inet hset hmac host

/-- Behind a request nothing is left of the sessions before: the messages that come out of any
    frames and requests, the client and the capture filter are those of a daemon that was started
    with what was asked for. The card of the client is not given. -/
theorem request_restarts (inet : Inet) (z : Inflater) (host : Option UInt32)
    (device ip mac : QString) (hmac : mac.length ≠ 17) (before : List Event) (r : Event)
    (fresh : Monitor)
    (hr : r.started inet
      (before.foldl (step inet z) (construct inet host device ip mac .PLAYBACK_OFF)) = some fresh)
    (after : List Event) :
    let m := (before ++ [r]).foldl (step inet z)
      (construct inet host device ip mac .PLAYBACK_OFF)
    outputs (step inet z) (message z) m after = outputs (step inet z) (message z) fresh after ∧
      (after.foldl (step inet z) m).Alike (after.foldl (step inet z) fresh) := by
  intro m
  have hbefore := foldl_invariant (step inet z) (step_settled inet)
    (construct_settled inet host device ip mac) before
  have halike : m.Alike fresh := by
    have hm : m = step inet z (before.foldl (step inet z)
        (construct inet host device ip mac .PLAYBACK_OFF)) r := List.foldl_concat _ _ _ _
    rw [hm]
    exact step_started inet hbefore hmac hr
  obtain ⟨houtputs, hlast⟩ := run_alike inet (z := z) halike after
  exact ⟨houtputs.symm, hlast⟩

end

/-- After a login the user asks for the next client; another one logs in. -/
theorem request_restarts_login :
    let m := (loginFrames.map (Event.dispatchPacket · 28) ++ [Event.monitorNextClient]).foldl
      (step Inet.dotted idleInflater) (construct Inet.dotted none [] [] [] .PLAYBACK_OFF)
    let fresh := construct Inet.dotted none [] AUTOMATIC_CLIENT_IP [] .PLAYBACK_OFF
    outputs (step Inet.dotted idleInflater) (message idleInflater) m
        (loginFrames.map (Event.dispatchPacket · 28)) =
      outputs (step Inet.dotted idleInflater) (message idleInflater) fresh
        (loginFrames.map (Event.dispatchPacket · 28)) :=
  (request_restarts Inet.dotted idleInflater none [] [] [] (by decide)
    (loginFrames.map (Event.dispatchPacket · 28)) .monitorNextClient _ rfl _).1

end Monitor

end ShoweqDaemon.Capture
