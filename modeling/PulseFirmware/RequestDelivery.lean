import PulseFirmware.StoredArguments
import PulseFirmware.WifiConnect
import PulseFirmware.Lib.Run

/-! Requests on their way from the command line to the network task, through a queue that holds one
message: a line that finds it full is dropped, and nobody is told. -/
namespace PulseFirmware
open PulseFirmware.CString PulseFirmware.Run

/-- The lines that ask the network task for something. -/
inductive RequestLine
  | connect (t : SecType)
  | connectDefault
  | scan
  | disconnect
  | getMac
  | getWifimac
  | dhcp (iface : Iface)
  | address (iface : Iface) (ip gw mask : Dotted)

def RequestLine.text : RequestLine → List UInt8
  | .connect t => connectLine t
  | .connectDefault => ascii "wifi connect default"
  | .scan => ascii "wifi scan"
  | .disconnect => ascii "wifi disconnect"
  | .getMac => ascii "get mac"
  | .getWifimac => ascii "get wifimac"
  | .dhcp iface => ascii iface.word ++ ascii "dhcp"
  | .address iface ip gw mask => ipconfigText iface ip gw mask

/-- The request of the line's own content: the stored name and key with the type of the line, or
the addresses of its text. -/
def RequestLine.asked (g : Globals) : RequestLine → NetworkMsg
  | .connect t =>
    .connect ⟨g.wifiParam.ssidSavedLen,t,m2mWifiChAll,
      memcpy (zeros 65) (g.wifiParam.ssidSaved.toList.take g.wifiParam.ssidSavedLen),
      memcpy (zeros 65) (strncpy (authBuff g.wifiParam t).toList m2mMaxPskLen)⟩
  | .connectDefault => .connectDefault
  | .scan => .scan
  | .disconnect => .disconnect
  | .getMac => .settingsShow
  | .getWifimac => .settingsShowWifi
  | .dhcp iface => .ipsettings ⟨true,iface,0,0,0⟩
  | .address iface ip gw mask => .ipsettings ⟨false,iface,ip.value,gw.value,mask.value⟩

/-- The device with the requests taken out of the queue and dispatched so far, and those asked for
by lines that got no reply over BLE, both in order. -/
structure Requests where
  g : Globals
  net : Net
  dispatched : List NetworkMsg
  asked : List NetworkMsg

def Requests.start (g : Globals) (net : Net) : Requests := ⟨g,net,[],g.wifiConQ.toList⟩

/-- A line, a part of an iteration of `network_task_fn`, or anything else that leaves the queue alone. -/
inductive RequestEvent
  | line (request : RequestLine) (line : Line)
  | poll (input : PollInput)
  | queue (started : Bool)
  | select
  | others (g : Globals)

def Requests.step (s : Requests) : RequestEvent → Option Requests
  | .line request line =>
    if line.bytes = request.text then
      match s.g.runLine line with
      | .ok g =>
        some { s with g, asked := if g.bleOut = s.g.bleOut then s.asked ++ [request.asked s.g] else s.asked }
      | .error _ => none
    else none
  | .poll input =>
    let (g,net) := pollMode s.g s.net input
    some { s with g, net }
  | .queue started =>
    let (g,net) := wifiCheckConnectQueue s.g s.net started
    some { s with g, net, dispatched := s.dispatched ++ s.g.wifiConQ.toList }
  | .select =>
    let (g,net) := selectTimeout s.g s.net
    some { s with g, net }
  | .others g => if g.wifiConQ = s.g.wifiConQ then some { s with g } else none

/-- Each line without a reply has its request dispatched or in the queue, and there are no others. -/
def Requests.Accounted (s : Requests) : Prop := s.dispatched ++ s.g.wifiConQ.toList = s.asked

instance (s : Requests) : Decidable s.Accounted := inferInstanceAs (Decidable (_ = _))

/-- `cmd_wifi_connect` sends the type it is told, and `cmd_ipconfig` the addresses it is given. -/
def RequestLine.Plain (g : Globals) (line : Line) : RequestLine → Prop
  | .connect t => t = .wpaPsk
  | .address _ ip gw mask => ip.value ≠ 0 ∧ gw.value ≠ 0 ∧ mask.value ≠ 0 ∧ mask.Ends (g.staleDigits line)
  | .connectDefault | .scan | .disconnect | .getMac | .getWifimac | .dhcp _ => True

/-- A line finds the queue empty, and its own request is the one that is sent for it. -/
def Requests.Room (s : Requests) : RequestEvent → Prop
  | .line request line => s.g.wifiConQ = none ∧ request.Plain s.g line
  | .poll _ | .queue _ | .select | .others _ => True

def sentAddresses (iface : Iface) : List UInt32 → Option NetworkMsg
  | [a,b,c] => if c = 0 then none else some (.ipsettings ⟨false,iface,a,b,c⟩)
  | _ => none

def RequestLine.sent (g : Globals) (line : Line) : RequestLine → Option NetworkMsg
  | .connect t => some (g.wifiParam.request t)
  | .address iface _ _ _ => (g.parsed line).bind (sentAddresses iface)
  | request => some (request.asked g)

structure Queued (g g' : Globals) (sent : Option NetworkMsg) : Prop where
  silent : g'.bleOut = g.bleOut
  queue : g'.wifiConQ = g.wifiConQ.or sent

private theorem send_queued (g : Globals) (msg : NetworkMsg) : Queued g (networkMsgSend g msg).1 (some msg) := by
  rcases networkMsgSend_cases g msg with ⟨empty,sent⟩ | ⟨full,dropped⟩
  · rw [sent]
    exact ⟨rfl,by rw [empty]; rfl⟩
  · rw [dropped]
    obtain ⟨waiting,queued⟩ := Option.ne_none_iff_exists'.mp full
    exact ⟨rfl,by rw [queued]; rfl⟩

private theorem wifi_queued (g : Globals) (line : Line) {word : List UInt8} {msg : NetworkMsg} {h : Globals}
    (text : line.bytes = ascii "wifi " ++ (word ++ [])) (longer : 0 < word.length)
    (run : cmdWifi (g.typed line) 5 (line.bytes.length - 5) = .ok (networkMsgSend h msg).1)
    (same : h.bleOut = g.bleOut ∧ h.wifiConQ = g.wifiConQ) :
    ∃ g', g.runLine line = .ok g' ∧ Queued g g' (some msg) := by
  obtain ⟨chosen,-,-⟩ := wifi_line g line text longer
  have queued := send_queued h msg
  refine ⟨{ (networkMsgSend h msg).1 with cmdLen := 0 },by rw [Globals.runLine, chosen, handle, run]; rfl,?_,?_⟩
  · exact queued.silent.trans same.1
  · exact queued.queue.trans (by rw [same.2])

/-- The line names none of the commands that take an argument. -/
private theorem wifi_rest {g : Globals} {line : Line} {word : List UInt8}
    (start : (g.typed line).mem.drop 5 = word ++ ([] ++ g.stale line))
    (other : ∀ cmd ∈ ["ssid ","key ","keyind ","login ","connect "], ¬ (ascii cmd).take word.length <+: word) (len : Nat) :
    cmdWifi (g.typed line) 5 len =
      if cmdCmp (g.typed line).mem 5 len "disconnect" then .ok (networkMsgSend (g.typed line) .disconnect).1
      else if cmdCmp (g.typed line).mem 5 len "scan" then .ok (networkMsgSend (g.typed line) .scan).1
      else .ok (g.typed line) := by
  simp only [List.forall_mem_cons, List.not_mem_nil, false_implies, implies_true, and_true] at other
  obtain ⟨ssid,key,keyind,login,connect⟩ := other
  unfold cmdWifi
  rw [if_neg (cmdCmp_other "ssid " start (by decide) ssid), if_neg (cmdCmp_other "key " start (by decide) key),
    if_neg (cmdCmp_other "keyind " start (by decide) keyind), if_neg (cmdCmp_other "login " start (by decide) login),
    if_neg (cmdCmp_other "connect " start (by decide) connect)]

private theorem scan_run (g : Globals) (line : Line) (text : line.bytes = ascii "wifi " ++ (ascii "scan" ++ [])) :
    cmdWifi (g.typed line) 5 (line.bytes.length - 5) = .ok (networkMsgSend (g.typed line) .scan).1 := by
  obtain ⟨-,start,size⟩ := wifi_line g line text (by decide)
  rw [wifi_rest start (by decide), if_neg (cmdCmp_other "disconnect" start (by decide) (by decide)),
    if_pos (cmdCmp_word "scan" start (by decide) (by decide) size)]

private theorem disconnect_run (g : Globals) (line : Line) (text : line.bytes = ascii "wifi " ++ (ascii "disconnect" ++ [])) :
    cmdWifi (g.typed line) 5 (line.bytes.length - 5) = .ok (networkMsgSend (g.typed line) .disconnect).1 := by
  obtain ⟨-,start,size⟩ := wifi_line g line text (by decide)
  rw [wifi_rest start (by decide), if_pos (cmdCmp_word "disconnect" start (by decide) (by decide) size)]

private theorem default_run (g : Globals) (line : Line) (text : line.bytes = ascii "wifi " ++ (ascii "connect default" ++ [])) :
    cmdWifi (g.typed line) 5 (line.bytes.length - 5) =
      .ok (networkMsgSend { g.typed line with keyconnect := true } .connectDefault).1 := by
  obtain ⟨-,start,size⟩ := wifi_line g line text (by decide)
  have last : (Globals.mem { g.typed line with keyconnect := true }).drop 13 = ascii "default" ++ ([] ++ g.stale line) := by
    change (g.typed line).mem.drop (5 + 8) = _
    rw [← List.drop_drop, start]
    have eight : (ascii "connect ").length = 8 := by decide
    exact List.drop_left' eight
  have seven : line.bytes.length - 5 - 8 = (ascii "default").length := by
    rw [size]
    decide
  unfold cmdWifi
  rw [if_neg (cmdCmp_other "ssid " start (by decide) (by decide)),
    if_neg (cmdCmp_other "key " start (by decide) (by decide)),
    if_neg (cmdCmp_other "keyind " start (by decide) (by decide)),
    if_neg (cmdCmp_other "login " start (by decide) (by decide)),
    if_pos (cmdCmp_word "connect " start (by decide) (by decide) (by rw [size]; decide))]
  unfold cmdWifiConnect
  rw [if_neg (cmdCmp_other "wpa" last (by decide) (by decide)),
    if_neg (cmdCmp_other "wep" last (by decide) (by decide)),
    if_neg (cmdCmp_other "802_1x" last (by decide) (by decide)),
    if_neg (cmdCmp_other "open" last (by decide) (by decide)),
    if_pos (cmdCmp_word "default" last (by decide) (by decide) seven)]

private theorem static_queued (g : Globals) (iface : Iface) {start : List UInt8} {values : List UInt32}
    (parsed : addresses start = some values) : ∃ h code, cmdIpconfigStatic g iface start = .ok (h,code) ∧
      Queued g h (sentAddresses iface values) := by
  have dropped (h : Globals) (silent : h.bleOut = g.bleOut) (queue : h.wifiConQ = g.wifiConQ) : Queued g h none :=
    ⟨silent,queue.trans (Option.or_none).symm⟩
  unfold addresses at parsed
  obtain ⟨⟨ip,rest⟩,first,parsed⟩ := Option.bind_eq_some_iff.mp parsed
  dsimp only at parsed
  by_cases zero : ip = 0
  · rw [if_pos zero] at parsed
    cases parsed
    exact ⟨{ g with ipaddr := ip },-1,by simp only [cmdIpconfigStatic, first, zero, if_true],dropped _ rfl rfl⟩
  · rw [if_neg zero] at parsed
    obtain ⟨⟨gw,rest'⟩,second,parsed⟩ := Option.bind_eq_some_iff.mp parsed
    dsimp only at parsed
    by_cases zero' : gw = 0
    · rw [if_pos zero'] at parsed
      cases parsed
      exact ⟨{ g with ipaddr := ip, gwaddr := gw },-1,
        by simp only [cmdIpconfigStatic, first, second, zero, zero', if_true, if_false],dropped _ rfl rfl⟩
    · rw [if_neg zero'] at parsed
      obtain ⟨⟨mask,rest''⟩,third,parsed⟩ := Option.bind_eq_some_iff.mp parsed
      cases parsed
      dsimp only [sentAddresses]
      by_cases zero'' : mask = 0
      · rw [if_pos zero'']
        exact ⟨{ g with ipaddr := ip, gwaddr := gw, netmask := mask },-1,
          by simp only [cmdIpconfigStatic, first, second, third, zero, zero', zero'', if_true, if_false],dropped _ rfl rfl⟩
      · rw [if_neg zero'']
        have queued := send_queued (setStatic g iface ip gw mask) (.ipsettings ⟨false,iface,ip,gw,mask⟩)
        refine ⟨(networkMsgIpconfig (setStatic g iface ip gw mask) ⟨false,iface,ip,gw,mask⟩).1,
          (networkMsgIpconfig (setStatic g iface ip gw mask) ⟨false,iface,ip,gw,mask⟩).2,?_,?_⟩
        · simp only [cmdIpconfigStatic, first, second, third, zero, zero', zero'', if_false]
          rfl
        · cases iface <;> exact ⟨queued.silent,queued.queue⟩

private theorem plain_queued (g : Globals) (line : Line) {h : Handler} {msg : NetworkMsg} (member : h ∈ commands)
    (unspaced : h.spaced = false) (text : line.bytes = h.word) (same : handle (g.typed line) line.bytes.length h =
      .ok (networkMsgSend (g.typed line) msg).1) : ∃ g', g.runLine line = .ok g' ∧ Queued g g' (some msg) := by
  have chosen : g.handler line = h :=
    argument_handler g line member unspaced (by rw [text, List.append_nil]) (List.prefix_refl _)
  have queued := send_queued (g.typed line) msg
  exact ⟨{ (networkMsgSend (g.typed line) msg).1 with cmdLen := 0 },by rw [Globals.runLine, chosen, same]; rfl,
    queued.silent,queued.queue⟩

theorem request_line (g : Globals) (line : Line) (request : RequestLine) (text : line.bytes = request.text) :
    ∃ g', g.runLine line = .ok g' ∧ Queued g g' (request.sent g line) := by
  cases request with
  | connect t =>
    have queued := send_queued { g.typed line with keyconnect := true, tryConnect := true } (g.wifiParam.request t)
    exact ⟨_,connect_line g line text,queued.silent,queued.queue⟩
  | connectDefault =>
    have split : line.bytes = ascii "wifi " ++ (ascii "connect default" ++ []) := text.trans (by decide)
    exact wifi_queued g line split (by decide) (default_run g line split) ⟨rfl,rfl⟩
  | scan =>
    have split : line.bytes = ascii "wifi " ++ (ascii "scan" ++ []) := text.trans (by decide)
    exact wifi_queued g line split (by decide) (scan_run g line split) ⟨rfl,rfl⟩
  | disconnect =>
    have split : line.bytes = ascii "wifi " ++ (ascii "disconnect" ++ []) := text.trans (by decide)
    exact wifi_queued g line split (by decide) (disconnect_run g line split) ⟨rfl,rfl⟩
  | getMac => exact @plain_queued g line .getMac _ (by decide) (by decide) text rfl
  | getWifimac => exact @plain_queued g line .getWifimac _ (by decide) (by decide) text rfl
  | dhcp iface =>
    have queued := send_queued (setFlags (g.typed line) (iface = .wlan)) (.ipsettings ⟨true,iface,0,0,0⟩)
    refine ⟨_,dhcp_line g line text,?_⟩
    cases iface <;> exact ⟨queued.silent,queued.queue⟩
  | address iface ip gw mask =>
    obtain ⟨taken,ran⟩ := address_line g line text
    obtain ⟨m,parsed,-⟩ := parsed_given g line text
    obtain ⟨h,code,done,queued⟩ := static_queued (g.typed line) iface (taken.symm.trans parsed)
    refine ⟨{ h with cmdLen := 0 },by rw [ran, done]; rfl,queued.silent,?_⟩
    rw [RequestLine.sent, parsed]
    exact queued.queue

theorem sent_asked (g : Globals) (line : Line) (request : RequestLine) (text : line.bytes = request.text) :
    request.sent g line = some (request.asked g) ↔ request.Plain g line := by
  cases request with
  | connect t =>
    constructor
    · intro same
      cases same
      rfl
    · rintro rfl
      rfl
  | address iface ip gw mask =>
    obtain ⟨m,parsed,exact_mask⟩ := parsed_given g line text
    simp only [RequestLine.sent, RequestLine.asked, RequestLine.Plain, parsed, ← exact_mask, given, Option.bind_some]
    by_cases zero : ip.value = 0
    · simp [sentAddresses, zero]
    · by_cases zero' : gw.value = 0
      · simp [sentAddresses, zero, zero']
      · by_cases zero'' : m = 0
        · simp only [sentAddresses, zero, zero', zero'', if_false, if_true, reduceCtorEq, false_iff]
          rintro ⟨-,-,set,same⟩
          exact set same.symm
        · simp only [sentAddresses, zero, zero', zero'', if_false, Option.some.injEq, NetworkMsg.ipsettings.injEq,
            NetworkIpconfig.mk.injEq, true_and, ne_eq, not_false_eq_true]
          exact ⟨fun same => ⟨same ▸ zero'',same⟩,fun plain => plain.2⟩
  | _ => exact iff_of_true rfl trivial

theorem dispatch_queue (g : Globals) (net : Net) (started : Bool) (msg : NetworkMsg) :
    (dispatchRequest g net started msg).1.wifiConQ = g.wifiConQ := by
  cases msg with
  | ipsettings config =>
    simp only [dispatchRequest]
    split <;> rfl
  | _ => rfl

theorem queue_emptied (g : Globals) (net : Net) (started : Bool) : (wifiCheckConnectQueue g net started).1.wifiConQ = none := by
  unfold wifiCheckConnectQueue
  split
  next empty => exact empty
  next msg _ => exact dispatch_queue _ net started msg

theorem pollMode_queue (g : Globals) (net : Net) (input : PollInput) : (pollMode g net input).1.wifiConQ = g.wifiConQ := by
  have polled (events : List WifiEvent) (p : Globals × Net) : (events.foldl wifiCb p).1.wifiConQ = p.1.wifiConQ := by
    induction events generalizing p with
    | nil => rfl
    | cons event events ih =>
      refine (ih (wifiCb p event)).trans ?_
      rcases event with (_ | _ | _) | _ <;> rfl
  unfold pollMode
  split
  next => exact polled input.events (g,net)
  next => split <;> rfl

private theorem setDefault_queue (g : Globals) (net : Net) (iface : Iface) : (setDefault g net iface).1.wifiConQ = g.wifiConQ := by
  unfold setDefault
  split <;> rfl

private theorem reportConnected_queue (g : Globals) (net : Net) : (reportConnected g net).1.wifiConQ = g.wifiConQ := by
  unfold reportConnected
  split
  next => split <;> rfl
  next => rfl

theorem selectTimeout_queue (g : Globals) (net : Net) : (selectTimeout g net).1.wifiConQ = g.wifiConQ := by
  unfold selectTimeout selectInterface
  split
  next =>
    split
    next => exact setDefault_queue g _ .eth
    next =>
      split
      next => exact (reportConnected_queue _ _).trans (setDefault_queue g _ .wlan)
      next => rfl
  next => rfl

private theorem queued_iff (done : List NetworkMsg) (queue sent : Option NetworkMsg) (own : NetworkMsg) :
    done ++ (queue.or sent).toList = done ++ queue.toList ++ [own] ↔ queue = none ∧ sent = some own := by
  cases queue with
  | none => cases sent <;> simp
  | some waiting => simp

private theorem step_accounted (s : Requests) (event : RequestEvent) (next : Requests) (_ : True) (good : s.Accounted)
    (stepped : s.step event = some next) : next.Accounted ↔ s.Room event := by
  unfold Requests.Accounted at good ⊢
  cases event with
  | line request line =>
    simp only [Requests.step] at stepped
    split at stepped
    next text =>
      obtain ⟨g',done,queued⟩ := request_line s.g line request text
      rw [done] at stepped
      obtain rfl := Option.some.inj stepped
      simp only [queued.silent, if_true, queued.queue, ← good]
      rw [queued_iff, sent_asked s.g line request text]
      rfl
    next => contradiction
  | poll input =>
    obtain rfl := Option.some.inj stepped
    exact iff_of_true ((congrArg (fun q : Option NetworkMsg => s.dispatched ++ q.toList) (pollMode_queue s.g s.net input)).trans good)
      trivial
  | queue started =>
    obtain rfl := Option.some.inj stepped
    refine iff_of_true ?_ trivial
    change s.dispatched ++ s.g.wifiConQ.toList ++ (wifiCheckConnectQueue s.g s.net started).1.wifiConQ.toList = s.asked
    rw [queue_emptied]
    exact (List.append_nil _).trans good
  | select =>
    obtain rfl := Option.some.inj stepped
    exact iff_of_true ((congrArg (fun q : Option NetworkMsg => s.dispatched ++ q.toList) (selectTimeout_queue s.g s.net)).trans good)
      trivial
  | others g =>
    simp only [Requests.step] at stepped
    split at stepped
    next same =>
      obtain rfl := Option.some.inj stepped
      exact iff_of_true ((congrArg (fun q : Option NetworkMsg => s.dispatched ++ q.toList) same).trans good) trivial
    next => contradiction

/-- In every interleaving each line has its own request dispatched or waiting exactly when each of
them finds the queue empty and is plain; and a pass over the queue dispatches what waits in it. -/
theorem requests_dispatched (g : Globals) (net : Net) (events : List RequestEvent) :
    (Always Requests.step Requests.Accounted (.start g net) events ↔ Meets Requests.step Requests.Room (.start g net) events) ∧
      ∀ (s : Requests) (started : Bool), ∃ next, s.step (.queue started) = some next ∧ next.g.wifiConQ = none ∧
        next.dispatched = s.dispatched ++ s.g.wifiConQ.toList ∧ (next.g,next.net) =
          s.g.wifiConQ.elim (s.g,s.net) (dispatchRequest { s.g with wifiConQ := none } s.net started) := by
  refine ⟨always_iff_meets (fun _ _ _ (_ : True) _ => trivial) step_accounted trivial rfl,fun s started => ?_⟩
  refine ⟨_,rfl,queue_emptied s.g s.net started,rfl,?_⟩
  change wifiCheckConnectQueue s.g s.net started = _
  unfold wifiCheckConnectQueue
  cases s.g.wifiConQ <;> rfl

def scanLine : Line := ⟨RequestLine.scan.text,by decide,by decide +kernel⟩

def macLine : Line := ⟨RequestLine.getMac.text,by decide,by decide +kernel⟩

theorem request_lost : ¬ ∀ (g : Globals) (net : Net) (events : List RequestEvent),
    Always Requests.step Requests.Accounted (.start g net) events := by
  intro all
  have kept := all (Globals.initial (zeros 235)) (ethernetInitInsideThread (Globals.initial (zeros 235)) ⟨true,true,true,true⟩)
    [.line .scan scanLine,.line .getMac macLine]
  exact absurd kept (by decide +kernel)

end PulseFirmware
