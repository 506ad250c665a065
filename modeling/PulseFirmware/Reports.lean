import PulseFirmware.Device

/-! Where reports of success come from: the name and the key from their command, the other
saved strings from the storage task, the addresses and the flags from the network task. -/
namespace PulseFirmware
open PulseFirmware.Flash

def Setting.reported (x : Setting) (g g' : Globals) : Bool :=
  (g'.bleOut.drop g.bleOut.length).any fun reply => decide (x ∈ reply.acks)

theorem reported_append (x : Setting) {g g' : Globals} (replies : List Reply) (sent : g'.bleOut = g.bleOut ++ replies) :
    x.reported g g' = replies.any fun reply => decide (x ∈ reply.acks) := by
  rw [Setting.reported, sent, List.drop_left]

def Silent (g g' : Globals) : Prop :=
  ∃ replies, g'.bleOut = g.bleOut ++ replies ∧ ∀ reply ∈ replies, reply.acks = []

theorem Silent.same {g g' : Globals} (same : g'.bleOut = g.bleOut) : Silent g g' := ⟨[],by simpa using same,by simp⟩

theorem Silent.one {g g' : Globals} (reply : Reply) (sent : g'.bleOut = g.bleOut ++ [reply]) (none : reply.acks = []) :
    Silent g g' :=
  ⟨[reply],sent,by simp [none]⟩

theorem Silent.trans {g h k : Globals} (first : Silent g h) (second : Silent h k) : Silent g k := by
  obtain ⟨before,sent,none⟩ := first
  obtain ⟨after,sent',none'⟩ := second
  refine ⟨before ++ after,by rw [sent', sent, List.append_assoc],fun reply member => ?_⟩
  rcases List.mem_append.mp member with early | late
  · exact none reply early
  · exact none' reply late

theorem Silent.unreported {g g' : Globals} (silent : Silent g g') {x : Setting} : ¬ x.reported g g' = true := by
  obtain ⟨replies,sent,none⟩ := silent
  rw [reported_append x replies sent, Bool.not_eq_true, List.any_eq_false]
  intro reply member
  simp [none reply member]

private theorem wifiCb_silent (p : Globals × Net) (event : WifiEvent) : Silent p.1 (wifiCb p event).1 := by
  rcases event with (_ | _ | _) | _
  · exact .one .disconnectedFromAp rfl rfl
  · exact .same rfl
  · exact .one .disconnectedFromAp rfl rfl
  · exact .same rfl

private theorem pollMode_silent (g : Globals) (net : Net) (input : PollInput) : Silent g (pollMode g net input).1 := by
  have polled (events : List WifiEvent) (p : Globals × Net) : Silent p.1 (events.foldl wifiCb p).1 := by
    induction events generalizing p with
    | nil => exact .same rfl
    | cons event events ih => exact (wifiCb_silent p event).trans (ih (wifiCb p event))
  unfold pollMode
  split
  next => exact polled input.events (g,net)
  next => split <;> exact .same rfl

private theorem setDefault_silent (g : Globals) (net : Net) (iface : Iface) : Silent g (setDefault g net iface).1 := by
  unfold setDefault
  split <;> exact .same rfl

private theorem reportConnected_silent (g : Globals) (net : Net) : Silent g (reportConnected g net).1 := by
  unfold reportConnected
  split
  next => split <;> first | exact .one .successConnected rfl rfl | exact .same rfl
  next => exact .same rfl

private theorem select_silent (g : Globals) (net : Net) : Silent g (selectTimeout g net).1 := by
  unfold selectTimeout selectInterface
  split
  next =>
    split
    next => exact setDefault_silent g _ .eth
    next =>
      split
      next => exact (setDefault_silent g _ .wlan).trans (reportConnected_silent _ _)
      next => exact .same rfl
  next => exact .same rfl

private theorem queue_reported {x : Setting} {g : Globals} {net : Net} {started : Bool}
    (reported : x.reported g (wifiCheckConnectQueue g net started).1 = true) :
    ∃ config, g.wifiConQ = some (.ipsettings config) ∧ (x = .dhcp ∨ (x = .ip ∧ config.dhcp = false)) := by
  unfold wifiCheckConnectQueue at reported
  split at reported
  next => exact absurd reported (Silent.same rfl).unreported
  next msg waiting =>
    cases msg with
    | ipsettings config =>
      refine ⟨config,waiting,?_⟩
      simp only [dispatchRequest] at reported
      split at reported
      next =>
        rw [reported_append x [.successIpconfigDhcpSaved] rfl] at reported
        exact Or.inl (by simpa [Reply.acks] using reported)
      next static =>
        rw [reported_append x [.successIpconfigSaved] rfl] at reported
        rcases (by simpa [Reply.acks] using reported : x = .ip ∨ x = .dhcp) with ip | dhcp
        · exact Or.inr ⟨ip,by simpa using static⟩
        · exact Or.inl dhcp
    | settingsShow => exact absurd reported (Silent.one _ rfl rfl).unreported
    | settingsShowWifi => exact absurd reported (Silent.one _ rfl rfl).unreported
    | _ => exact absurd reported (Silent.same rfl).unreported

private theorem computed_reported {x : Setting} {stage : Stage} {branch : Bool} {k : Nat} {op : Op} {g g' : Globals}
    {flash : Content UInt8} (found : (stage.ops branch)[k]? = some op) (computed : op.computed g flash = .ok g')
    (reported : x.reported g g' = true) : x ≠ .ip ∧ x ≠ .dhcp := by
  have one (reply : Reply) (y : Setting) (own : reply.acks = [y]) (apart : y ≠ .ip ∧ y ≠ .dhcp)
      (sent : g'.bleOut = g.bleOut ++ [reply]) : x ≠ .ip ∧ x ≠ .dhcp := by
    rw [reported_append x [reply] sent] at reported
    obtain rfl : x = y := by simpa [own] using reported
    exact apart
  have member := List.mem_of_getElem? found
  cases stage with
  | bootRead =>
    cases branch <;> simp only [Stage.ops, bootReads, List.mem_cons, List.not_mem_nil, or_false] at member
    rcases member with rfl | rfl | rfl | rfl | rfl | rfl | rfl | rfl | rfl | rfl | rfl | rfl <;> cases computed <;>
      exact absurd reported (Silent.same rfl).unreported
  | bootWifi =>
    cases branch <;> simp only [Stage.ops, defaultWifi, List.mem_cons, List.not_mem_nil, or_false] at member
    · rcases member with rfl | rfl | rfl <;> cases computed <;> exact absurd reported (Silent.same rfl).unreported
    · subst member; cases computed; exact absurd reported (Silent.same rfl).unreported
  | bootEth =>
    cases branch <;> simp only [Stage.ops, defaultEth, List.mem_cons, List.not_mem_nil, or_false] at member
    · rcases member with rfl | rfl | rfl <;> cases computed <;> exact absurd reported (Silent.same rfl).unreported
    · subst member; cases computed; exact absurd reported (Silent.same rfl).unreported
  | testInternet =>
    cases branch <;> simp only [Stage.ops, testInternetOps, List.mem_cons, List.not_mem_nil, or_false] at member
    rcases member with rfl | rfl
    · cases computed; exact absurd reported (Silent.same rfl).unreported
    · cases computed; exact absurd reported (Silent.one _ rfl (by split <;> rfl)).unreported
  | restart =>
    cases branch <;> simp only [Stage.ops, List.mem_cons, List.not_mem_nil, or_false] at member
    subst member
    contradiction
  | update =>
    cases branch <;> simp only [Stage.ops, List.mem_cons, List.not_mem_nil, or_false] at member
    · subst member; cases computed; exact absurd reported (Silent.same rfl).unreported
    · subst member; contradiction
  | save y =>
    cases branch
    · simp [Stage.ops] at member
    · cases saveOps_action found with
      | pause yields =>
        cases op <;> first | contradiction | (cases computed; exact absurd reported (Silent.same rfl).unreported)
      | erase => cases computed; exact absurd reported (Silent.same rfl).unreported
      | write => cases computed; exact absurd reported (Silent.same rfl).unreported
      | copy =>
        obtain ⟨copy,_,rest⟩ := bind_ok computed
        cases rest
        exact absurd reported (Silent.same rfl).unreported
      | done own =>
        subst own
        cases y with
        | token =>
          obtain ⟨copy,_,rest⟩ := bind_ok computed
          cases rest
          exact one .successToken .token rfl (by decide) rfl
        | link =>
          obtain ⟨copy,_,rest⟩ := bind_ok computed
          cases rest
          exact one .successLink .link rfl (by decide) rfl
        | internet => cases computed; exact one .successWifiEth .internet rfl (by decide) rfl
        | config => cases computed; exact one .successEquipment .config rfl (by decide) rfl
        | _ => cases computed; exact absurd reported (Silent.same rfl).unreported

private theorem storage_reported {x : Setting} {g g' : Globals} {flash flash' : Content UInt8} {pc pc' : Pc}
    (stepped : storageStep ideal g flash pc = .ok (g',flash',pc')) (reported : x.reported g g' = true) :
    x ≠ .ip ∧ x ≠ .dhcp := by
  cases storage_cases x stepped with
  | enter stage => exact absurd reported (Silent.same rfl).unreported
  | own found computed =>
    have within : ((Stage.save x).ops true)[_]? = some _ := found
    exact computed_reported within computed reported
  | other _ found computed => exact computed_reported found computed reported

private theorem line_reported {x : Setting} {g g' : Globals} {line : Line} (done : g.runLine line = .ok g')
    (reported : x.reported g g' = true) : x.hears g line = true := by
  obtain ⟨replies,sent,heard⟩ := runLine_replies done
  rw [reported_append x replies sent, List.any_eq_true] at reported
  obtain ⟨reply,member,acked⟩ := reported
  exact heard reply member x (of_decide_eq_true acked)

inductive ReportingStep (x : Setting) (g : Globals) : Event → Prop
  | storage (notIp : x ≠ .ip) (notDhcp : x ≠ .dhcp) : ReportingStep x g .storage
  | line {line : Line} (hears : x.hears g line = true) : ReportingStep x g (.line line)
  | queue {started : Bool} {config : NetworkIpconfig} (waiting : g.wifiConQ = some (.ipsettings config))
      (own : x = .dhcp ∨ (x = .ip ∧ config.dhcp = false)) : ReportingStep x g (.queue started)

theorem device_reported {x : Setting} {s next : Device} {event : Event} (stepped : s.step event = some next)
    (reported : x.reported s.g next.g = true) : ReportingStep x s.g event := by
  cases event with
  | storage =>
    simp only [Device.step] at stepped
    split at stepped
    next result =>
      cases stepped
      obtain ⟨notIp,notDhcp⟩ := storage_reported result reported
      exact .storage notIp notDhcp
    next => contradiction
  | line line =>
    simp only [Device.step] at stepped
    split at stepped
    next =>
      split at stepped
      next done => cases stepped; exact .line (line_reported done reported)
      next => contradiction
    next => contradiction
  | netStart boot =>
    simp only [Device.step] at stepped
    split at stepped
    next => cases stepped; exact absurd reported (Silent.same rfl).unreported
    next => contradiction
  | poll input =>
    simp only [Device.step] at stepped
    obtain ⟨_,net,_,rfl⟩ := withNet_cases stepped
    exact absurd reported (pollMode_silent s.g net input).unreported
  | queue started =>
    simp only [Device.step] at stepped
    obtain ⟨_,net,_,rfl⟩ := withNet_cases stepped
    obtain ⟨config,waiting,own⟩ := queue_reported reported
    exact .queue waiting own
  | select =>
    simp only [Device.step] at stepped
    obtain ⟨_,net,_,rfl⟩ := withNet_cases stepped
    exact absurd reported (select_silent s.g net).unreported
  | others checkInternet restartSystem isBleOn =>
    simp only [Device.step] at stepped
    split at stepped
    next => cases stepped; exact absurd reported (Silent.same rfl).unreported
    next => contradiction
  | reset junk behind =>
    cases stepped
    simp [Setting.reported, Device.start, Globals.initial] at reported

end PulseFirmware
