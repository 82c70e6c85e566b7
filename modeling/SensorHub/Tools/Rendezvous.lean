import SensorHub.Daemon.Startup
import SensorHub.Tools.Sensorctl

set_option autoImplicit false

/-!
# Where the tools find the daemon

`parse_config_arg` of `userspace/src/main.cpp`, the arguments of
`userspace/tools/sensor_subscribe.cpp`, and the addresses that `sensorctl` and `sensor_subscribe`
connect to. Each of the three programs reads its own arguments, and loads the configuration for
itself when it is started: the file may have been edited since the daemon has read it, and a
relative path is looked up in the directory the program was started in.

* `parseConfigArg`, `subscribeArgs`; `scanConfigArg_eq`, `scanSubscribe_path`: all of them take
  the path of the last option.
* `FdHistory`, `FdHistory.of`: the calls on descriptors, read off the statements that were run;
  `Served`, `serving_step`: that is what was called.
* `Address.within`, `sensorctlAddress`, `subscribeAddress`, `Boot.Listens`;
  **`tools_reach_daemon`**: which settings have to agree.
-/

namespace SensorHub

open Trans Sensorctl

/-! ### The arguments -/

/-- `"config/sensorhub.conf"`. -/
def defaultPath : Bytes := ascii "config/sensorhub.conf"

/-- `arg == "-h" || arg == "--help"`. -/
def isHelp (arg : Bytes) : Bool := arg = ascii "-h" || arg = ascii "--help"

/-- The loop of `parse_config_arg`; `none` is the help text and `exit(0)`. -/
def scanConfigArg (path : Bytes) : List Bytes → Option Bytes
  | [] => some path
  | [arg] => if isHelp arg then none else some path
  | arg :: next :: rest =>
      if isConfigOption arg then scanConfigArg next rest
      else if isHelp arg then none
      else scanConfigArg path (next :: rest)

/-- `parse_config_arg`. -/
def parseConfigArg (args : List Bytes) : Option Bytes := scanConfigArg defaultPath args

/-- `arg == "-n" || arg == "--count"`. -/
def isCountOption (arg : Bytes) : Bool := arg = ascii "-n" || arg = ascii "--count"

/-- The loop over the arguments of `sensor_subscribe`. -/
def scanSubscribe (path : Bytes) (count : ℤ) : List Bytes → Except ConfigError (Bytes × ℤ)
  | [] | [_] => .ok (path, count)
  | arg :: next :: rest =>
      if isConfigOption arg then scanSubscribe next count rest
      else if isCountOption arg then (stoi next).bind fun count => scanSubscribe path count rest
      else scanSubscribe path count (next :: rest)

/-- The path and the count for the arguments of `sensor_subscribe`. -/
def subscribeArgs (args : List Bytes) : Except ConfigError (Bytes × ℤ) :=
  scanSubscribe defaultPath 5 args

/-- The value of the last option. -/
def lastPath (args : List Bytes) : Bytes := (paths args).getLastD defaultPath

theorem scanConfigArg_eq {path p : Bytes} {args : List Bytes}
    (h : scanConfigArg path args = some p) : p = (paths args).getLastD path := by
  induction path, args using scanConfigArg.induct with
  | case1 path =>
      cases h
      rfl
  | case2 path arg hhelp =>
      rw [scanConfigArg, if_pos hhelp] at h
      cases h
  | case3 path arg hhelp =>
      rw [scanConfigArg, if_neg hhelp] at h
      cases h
      rfl
  | case4 path arg next rest hopt ih =>
      rw [scanConfigArg, if_pos hopt] at h
      rw [paths, if_pos hopt, List.getLastD_cons]
      exact ih h
  | case5 path arg next rest hopt hhelp =>
      rw [scanConfigArg, if_neg hopt, if_pos hhelp] at h
      cases h
  | case6 path arg next rest hopt hhelp ih =>
      rw [scanConfigArg, if_neg hopt, if_neg hhelp] at h
      rw [paths, if_neg hopt]
      exact ih h

/-- An option is not a number. -/
theorem stoi_of_isConfigOption {arg : Bytes} (h : isConfigOption arg = true) (c : ℤ) :
    stoi arg ≠ .ok c := by
  simp only [isConfigOption, Bool.or_eq_true, decide_eq_true_eq] at h
  rcases h with rfl | rfl
  · intro hc
    cases hc
  · intro hc
    cases hc

/-- A number behind `-n` is passed over by the other programs, which know no `-n`. -/
theorem paths_cons {arg : Bytes} (h : isConfigOption arg = false) (rest : List Bytes) :
    paths (arg :: rest) = paths rest := by
  cases rest with
  | nil => rfl
  | cons next rest => simp [paths, h]

theorem scanSubscribe_path {path p : Bytes} {count c : ℤ} {args : List Bytes}
    (h : scanSubscribe path count args = .ok (p, c)) : p = (paths args).getLastD path := by
  induction path, count, args using scanSubscribe.induct with
  | case1 path count | case2 path count arg =>
      cases h
      rfl
  | case3 path count arg next rest hopt ih =>
      rw [scanSubscribe, if_pos hopt] at h
      rw [paths, if_pos hopt, List.getLastD_cons]
      exact ih h
  | case4 path count arg next rest hopt hcount ih =>
      rw [scanSubscribe, if_neg hopt, if_pos hcount] at h
      cases hnext : stoi next with
      | error e =>
          rw [hnext] at h
          cases h
      | ok count' =>
          rw [hnext] at h
          have hnumber : isConfigOption next = false := by
            by_contra hne
            exact stoi_of_isConfigOption (by simpa using hne) count' hnext
          rw [paths_cons (by simpa using hopt), paths_cons hnumber]
          exact ih count' h
  | case5 path count arg next rest hopt hcount ih =>
      rw [scanSubscribe, if_neg hopt, if_neg hcount] at h
      rw [paths, if_neg hopt]
      exact ih h

/-! ### What was called on the descriptors -/

/-- The calls on `fd`, and on what the objects were given. -/
structure FdHistory where
  fd : List FdCall
  objs : Place → Option (List FdCall)

namespace FdHistory

def step (h : FdHistory) : Stmt → FdHistory
  | .openFd _ => { h with fd := [] }
  | .check _ effect => { h with fd := h.fd ++ [effect] }
  | .construct x | .reset x => { h with objs := Function.update h.objs x (some h.fd) }
  | _ => h

/-- Nothing was opened. -/
def none : FdHistory := ⟨[], fun _ => Option.none⟩

/-- Read off the statements that were run. -/
def of (done : List Stmt) : FdHistory := done.foldl step none

theorem of_concat (done : List Stmt) (stmt : Stmt) : of (done ++ [stmt]) = (of done).step stmt := by
  rw [of, List.foldl_concat]
  rfl

end FdHistory

namespace Boot

variable {s t : Boot} {h : FdHistory}

/-- The calls that were made on the opening `id`. -/
def callsOn (s : Boot) (id : ℕ) : List FdCall :=
  (s.calls.filter fun call => call.1 = id).map Prod.snd

/-- The calls were made on openings that exist; `fd` and the objects have seen the calls of the
history. -/
structure Served (h : FdHistory) (s : Boot) : Prop where
  known : ∀ call ∈ s.calls, call.1 < s.fds.next
  fd : ∀ {n id}, s.fd = some n → s.fds.files n = some id → s.callsOn id = h.fd
  objs : ∀ {x cs}, h.objs x = some cs →
    ∃ n id, s.fds.Has x.number n ∧ s.fds.files n = some id ∧ s.callsOn id = cs

theorem served_init (stmts : List Stmt) : Served .none (init stmts) where
  known _ hcall := by cases hcall
  fd hfd := by cases hfd
  objs hx := by cases hx

/-- What an operation leaves as it is, whoever makes it. -/
theorem Served.op (hs : Served h s) (hkept : Kept s) {o : FdOp} {fds : Fds}
    (hop : opStep s.fds o = some fds) :
    (∀ call ∈ s.calls, call.1 < fds.next) ∧
      ∀ {x : Place} {cs}, x.number ∉ o.objects → h.objs x = some cs →
        ∃ n id, fds.Has x.number n ∧ fds.files n = some id ∧ s.callsOn id = cs := by
  have hmoved := Fds.moved_op hkept.owned hop
  refine ⟨fun call hcall => (hs.known call hcall).trans_le hmoved.next, ?_⟩
  intro x cs hx hcs
  obtain ⟨n, id, hhas, hn, hcalls⟩ := hs.objs hcs
  obtain ⟨hhas', hn'⟩ := hkept.owned.other hhas hx hop
  exact ⟨n, id, hhas', hn'.trans hn, hcalls⟩

/-- The rest of the process. -/
theorem Served.other (hs : Served h s) (hkept : Kept s) {o : FdOp} {fds : Fds}
    (hop : opStep s.fds o = some fds) (hobjects : ∀ x ∈ o.objects, 7 ≤ x)
    (htakes : s.fd.any o.takes = false) : Served h { s with fds := fds } := by
  obtain ⟨hknown, hobjs⟩ := hs.op hkept hop
  refine ⟨hknown, ?_, ?_⟩
  · intro n id hn hid
    obtain ⟨id', -, hid', hnot⟩ := hkept.fresh hn
    have hn' : s.fd = some n := hn
    rw [hn', Option.any_some] at htakes
    have hid'' : fds.files n = some id' :=
      (Fds.moved_op hkept.owned hop).kept hid' hnot htakes
    have heq : id' = id := Option.some.inj (hid''.symm.trans hid)
    exact hs.fd hn (heq ▸ hid')
  · intro x cs hcs
    refine hobjs ?_ hcs
    intro hx
    have hle := hobjects _ hx
    have hlt := x.number_lt
    omega

/-- `fd` is handed to the object `x`. -/
theorem Served.handOver (hs : Served h s) (hkept : Kept s) {x : Place} {n : ℕ} {o : FdOp}
    {fds : Fds} (hfd : s.fd = some n) (hop : opStep s.fds o = some fds)
    (ho : o.objects = [x.number]) (hgiven : fds.Has x.number n)
    (hfile : fds.files n = s.fds.files n) (locals : List Local) :
    Served { h with objs := Function.update h.objs x (some h.fd) }
      { s with fds := fds, fd := none, locals := locals } := by
  obtain ⟨hknown, hobjs⟩ := hs.op hkept hop
  refine ⟨hknown, ?_, ?_⟩
  · intro m id hm
    cases hm
  · intro y cs hcs
    obtain ⟨id, -, hid, -⟩ := hkept.fresh hfd
    by_cases hyx : y = x
    · subst hyx
      simp only [Function.update_self, Option.some.injEq] at hcs
      exact ⟨n, id, hgiven, hfile.trans hid, (hs.fd hfd hid).trans hcs⟩
    · simp only [Function.update_of_ne hyx] at hcs
      refine hobjs ?_ hcs
      rw [ho]
      exact Place.number_notMem hyx

/-- A call on `fd`. -/
theorem Served.call (hs : Served h s) (hkept : Kept s) {n : ℕ} (hfd : s.fd = some n)
    (effect : FdCall) :
    Served { h with fd := h.fd ++ [effect] }
      { s with calls := s.calls ++ (s.fds.files n).toList.map fun id => (id, effect) } := by
  obtain ⟨id, -, hid, hnot⟩ := hkept.fresh hfd
  rw [hid]
  refine ⟨?_, ?_, ?_⟩
  · intro call hcall
    rcases List.mem_append.mp hcall with hcall | hcall
    · exact hs.known call hcall
    · rw [List.mem_singleton.mp hcall]
      exact hkept.owned.minted hid
  · intro m id' hm hid'
    have hm' : s.fd = some m := hm
    rw [hfd] at hm'
    cases hm'
    have heq : id = id' := Option.some.inj (hid.symm.trans hid')
    subst heq
    have hold := hs.fd hfd hid
    unfold callsOn at hold ⊢
    simp [hold]
  · intro x cs hcs
    obtain ⟨m, id', hhas, hm, hcalls⟩ := hs.objs hcs
    refine ⟨m, id', hhas, hm, ?_⟩
    -- what an object holds is adopted, and `fd` is not
    have hne : id ≠ id' := by
      rintro rfl
      obtain ⟨id'', hm'', hadopted, -⟩ := hkept.owned.held hhas
      rw [hm] at hm''
      cases hm''
      exact hnot hadopted
    unfold callsOn at hcalls ⊢
    simp [hcalls, hne]

/-- A descriptor is opened. -/
theorem Served.opened (hs : Served h s) (hkept : Kept s) {n : ℕ} {fds : Fds}
    (hop : opStep s.fds (.openFile n) = some fds) (rest : List Stmt) (made : List ℕ) :
    Served { h with fd := [] } { s with fds := fds, rest := rest, fd := some n, made := made } := by
  obtain ⟨hknown, hobjs⟩ := hs.op hkept hop
  refine ⟨hknown, ?_, fun hcs => hobjs (by simp [FdOp.objects]) hcs⟩
  intro m id hm hid
  cases hm
  simp only [opStep] at hop
  split at hop
  · cases hop
    simp only [Function.update_self, Option.some.injEq] at hid
    -- nothing was called on an opening that did not exist
    show (s.calls.filter fun call => call.1 = id).map Prod.snd = []
    rw [List.map_eq_nil_iff, List.filter_eq_nil_iff]
    intro call hcall
    have hlt := hs.known call hcall
    simp only [decide_eq_true_eq]
    omega
  · cases hop

/-- The next statement does what it should. -/
theorem served_exec {stmt : Stmt} {rest : List Stmt} (hs : Served h s) (hkept : Kept s)
    (hst : exec { s with rest := rest } stmt = some t) (hmode : t.mode = .running) :
    Served (h.step stmt) t ∧ t.rest = rest ∧ ∀ text, stmt ≠ .test text false := by
  cases stmt with
  | openFd action => cases hst
  | call | vector | thread | join =>
      cases hst
      exact ⟨⟨hs.known, hs.fd, hs.objs⟩, rfl, by simp⟩
  | check action effect =>
      obtain ⟨n, hfd, rfl⟩ := Option.map_eq_some_iff.mp hst
      obtain ⟨hknown, hcalls, hobjs⟩ := hs.call hkept hfd effect
      exact ⟨⟨hknown, hcalls, hobjs⟩, rfl, by simp⟩
  | test text passed =>
      cases passed with
      | true =>
          cases hst
          exact ⟨⟨hs.known, hs.fd, hs.objs⟩, rfl, by simp⟩
      | false =>
          obtain ⟨n, -, hst⟩ := Option.bind_eq_some_iff.mp hst
          obtain ⟨fds, -, rfl⟩ := Option.map_eq_some_iff.mp hst
          cases hmode
  | construct x =>
      obtain ⟨n, hfd, hst⟩ := Option.bind_eq_some_iff.mp hst
      obtain ⟨fds, hop, rfl⟩ := Option.map_eq_some_iff.mp hst
      obtain ⟨-, hgiven, hfiles⟩ := Fds.opStep_construct hop
      obtain ⟨hknown, hcalls, hobjs⟩ := hs.handOver hkept hfd hop rfl hgiven
        (congrFun hfiles n) (.unique x :: s.locals)
      exact ⟨⟨hknown, hcalls, hobjs⟩, rfl, by simp⟩
  | default x =>
      obtain ⟨fds, hop, rfl⟩ := Option.map_eq_some_iff.mp hst
      obtain ⟨hnone, -, hfiles⟩ := Fds.opStep_construct hop
      obtain ⟨hknown, hobjs⟩ := hs.op hkept hop
      refine ⟨⟨hknown, ?_, ?_⟩, rfl, by simp⟩
      · intro n id hn hid
        exact hs.fd hn ((congrFun hfiles n).symm.trans hid)
      · intro y cs hcs
        refine hobjs ?_ hcs
        intro hy
        obtain ⟨n, id, hhas, -⟩ := hs.objs hcs
        rw [List.mem_singleton.mp hy] at hhas
        exact Fds.not_has_of_none hnone n hhas
  | reset x =>
      obtain ⟨n, hfd, hst⟩ := Option.bind_eq_some_iff.mp hst
      obtain ⟨fds, hop, rfl⟩ := Option.map_eq_some_iff.mp hst
      obtain ⟨id, -, hid, hnot⟩ := hkept.fresh hfd
      obtain ⟨hgiven, hfile⟩ := Fds.opStep_reset hkept.owned hid hnot hop
      obtain ⟨hknown, hcalls, hobjs⟩ := hs.handOver hkept hfd hop rfl hgiven
        (hfile.trans hid.symm) s.locals
      exact ⟨⟨hknown, hcalls, hobjs⟩, rfl, by simp⟩

/-- In the `try` block, the statements that were run have their history. -/
structure Serving (stmts : List Stmt) (s : Boot) : Prop where
  booted : Booted s
  served : s.mode = .running → ∃ done, done ++ s.rest = stmts ∧
    (∀ text, .test text false ∉ done) ∧ Served (.of done) s

theorem serving_init {stmts : List Stmt} (htidy : tidy false [] stmts = true) :
    Serving stmts (init stmts) where
  booted := booted_init htidy
  served _ := ⟨[], rfl, by simp, served_init stmts⟩

/-- **What was called on a descriptor is what the statements say.** -/
theorem serving_step {stmts : List Stmt} {l : BootLabel} (hs : Serving stmts s)
    (hst : bootStep s l = some t) : Serving stmts t := by
  refine ⟨booted_step hs.booted hst, ?_⟩
  intro hrunning
  cases bootStep_move hst with
  | @exec stmt rest t hmode hrest hst =>
      obtain ⟨done, hdone, htests, hserved⟩ := hs.served hmode
      obtain ⟨hserved', hrest', hstmt⟩ := served_exec hserved hs.booted.kept hst hrunning
      refine ⟨done ++ [stmt], ?_, ?_, ?_⟩
      · rw [hrest', List.append_assoc, List.singleton_append, ← hrest, hdone]
      · intro text hmem
        rcases List.mem_append.mp hmem with hmem | hmem
        · exact htests text hmem
        · exact hstmt text (List.mem_singleton.mp hmem).symm
      · rw [FdHistory.of_concat]
        exact hserved'
  | @opened n action rest fds hmode hrest hop =>
      obtain ⟨done, hdone, htests, hserved⟩ := hs.served hmode
      refine ⟨done ++ [.openFd action], ?_, ?_, ?_⟩
      · rw [List.append_assoc, List.singleton_append, ← hrest, hdone]
      · intro text hmem
        rcases List.mem_append.mp hmem with hmem | hmem
        · exact htests text hmem
        · cases List.mem_singleton.mp hmem
      · rw [FdHistory.of_concat]
        exact hserved.opened hs.booted.kept hop _ _
  | closeAndRaise hmode hst =>
      obtain ⟨n, -, hst⟩ := Option.bind_eq_some_iff.mp hst
      obtain ⟨fds, -, rfl⟩ := Option.map_eq_some_iff.mp hst
      cases hrunning
  | raise _ _ _ _ | terminate _ _ _ | finish _ _ | returns _ _ => cases hrunning
  | destroy hmode hlocals hop | destroyWorkers hmode hlocals hzero =>
      rw [hmode] at hrunning
      cases hrunning
  | other hobjects htakes hop =>
      obtain ⟨done, hdone, htests, hserved⟩ := hs.served hrunning
      exact ⟨done, hdone, htests, hserved.other hs.booted.kept hop hobjects htakes⟩

end Boot

/-! ### The addresses -/

/-- The absolute path, for a program in the directory `dir`. -/
def absolutePath (dir path : Bytes) : Bytes :=
  if path.head? = some 47 then path else dir ++ ascii "/" ++ path      -- '/'

/-- The directory does not matter for an absolute path. -/
theorem absolutePath_sunPath {path : Bytes} (h : path.head? = some 47) (dir dir' : Bytes) :
    absolutePath dir (sunPath path) = absolutePath dir' (sunPath path) := by
  obtain ⟨rest, rfl⟩ := List.head?_eq_some_iff.mp h
  have hhead : (sunPath (47 :: rest)).head? = some 47 := by
    simp [sunPath, sizeofSunPath]
  rw [absolutePath, if_pos hhead, absolutePath, if_pos hhead]

/-- The address as it is looked up by a program in the directory `dir`. -/
def Address.within (dir : Bytes) : Address → Address
  | .unix path => .unix (absolutePath dir path)
  | address => address

/-- A connection to `target` finds a socket that is bound to this address. -/
def Address.covers : Address → Address → Bool
  | .inet none port, .inet _ port' => port = port'
  | self, target => self = target

/-- Where `sensorctl` connects to, with these arguments; `found` is what it finds under a path. -/
def sensorctlAddress (found : Bytes → Option Bytes) (args : List Bytes) :
    Except ConfigError Address :=
  let path := (parseArgs args).configPath
  (loadConfigFile path (found path)).bind fun config =>
    if sizeofSunPath ≤ config.controlSocket.length then
      .error (.runtime (ascii "control socket path is too long"))
    else .ok (.unix (sunPath config.controlSocket))

/-- Where `sensor_subscribe` connects to, with these arguments. -/
def subscribeAddress (found : Bytes → Option Bytes) (args : List Bytes) :
    Except ConfigError Address :=
  (subscribeArgs args).bind fun (path, _) =>
    (loadConfigFile path (found path)).bind fun config =>
      .ok (.inet (some (ascii "127.0.0.1")) config.tcpListenPort)

namespace Boot

/-- In the directory `dir`, the object `x` holds an open socket that was bound, and is listening,
where a connection to `target` finds it. -/
def Listens (s : Boot) (dir : Bytes) (x : Place) (target : Address) : Prop :=
  ∃ n id self, s.fds.Has x.number n ∧ s.fds.files n = some id ∧
    s.callsOn id = [.bind self, .listen] ∧ Address.covers (self.within dir) target = true

theorem foldl_replicate {stmt : Stmt} (hstmt : ∀ h : FdHistory, h.step stmt = h) (n : ℕ)
    (h : FdHistory) : (List.replicate n stmt).foldl FdHistory.step h = h := by
  induction n with
  | zero => rfl
  | succ n ih => rw [List.replicate_succ, List.foldl_cons, hstmt, ih]

/-- The sockets at the end of the preparations. -/
theorem of_prepareStmts (config : AppConfig) (validHost : Bool) :
    (FdHistory.of (prepareStmts config validHost)).objs .listenFd =
        some [.bind (.inet none config.tcpListenPort), .listen] ∧
      (FdHistory.of (prepareStmts config validHost)).objs .controlFd =
        some [.bind (.unix (sunPath config.controlSocket)), .listen] := by
  have hthreads : ∀ h : FdHistory,
      (List.replicate config.workerThreads.toNat .thread).foldl FdHistory.step h = h :=
    foldl_replicate (fun _ => rfl) _
  have hcalls : ∀ h : FdHistory, (List.replicate 4 .call).foldl FdHistory.step h = h :=
    foldl_replicate (fun _ => rfl) 4
  have hsource : ∀ h : FdHistory,
      ((startSource config).foldl FdHistory.step h).objs .listenFd = h.objs .listenFd := by
    intro h
    unfold startSource
    split_ifs
    · simp [startTimer, FdHistory.step]
    · simp [openDevice, FdHistory.step]
  constructor
  · simp only [FdHistory.of, prepareStmts, createUdpSocket, listenOn, createSignalFd,
      createControlSocket, epollLoop, List.foldl_append, List.foldl_cons, List.foldl_nil, hthreads,
      hcalls, FdHistory.step]
    simp [FdHistory.none, hsource]
  · simp only [FdHistory.of, prepareStmts, createUdpSocket, listenOn, createSignalFd,
      createControlSocket, epollLoop, List.foldl_append, List.foldl_cons, List.foldl_nil, hthreads,
      hcalls, FdHistory.step]
    simp

/-- **The tools find the daemon.** The daemon is in its loop, in the directory `dir`, with the
configuration it has loaded when it was started. Whatever the tools find under their paths later:
* `sensorctl` takes the address of the control socket, on which the daemon listens, if the
  configuration it loads has the same `control_socket`, and that is absolute or `sensorctl` is in
  the same directory;
* `sensor_subscribe` takes an address on which the broadcaster listens, if the configuration it
  loads has the same `tcp_listen_port`, unless its count is not a number;
whatever the rest of the process did to its descriptors since. So both do with the path of the
daemon's arguments, as long as nobody edits those two settings. -/
theorem tools_reach_daemon {files : Bytes → Option Bytes} {args : List Bytes} {path dir : Bytes}
    {config : AppConfig} {validHost : Bool} {s : Boot} (hargs : parseConfigArg args = some path)
    (hconfig : loadConfigFile path (files path) = .ok config)
    (h : Reachable bootStep (init (startupStmts config validHost)) s)
    (hmode : s.mode = .running) (hloop : s.rest = serveStmts) :
    (∀ (found : Bytes → Option Bytes) (dir' : Bytes) (ctl : List Bytes) (config' : AppConfig),
      loadConfigFile (lastPath ctl) (found (lastPath ctl)) = .ok config' →
      config'.controlSocket = config.controlSocket →
      dir' = dir ∨ config.controlSocket.head? = some 47 →
      ∃ target, sensorctlAddress found ctl = .ok target ∧
        s.Listens dir .controlFd (target.within dir')) ∧
    (∀ (found : Bytes → Option Bytes) (dir' : Bytes) (sub : List Bytes) (config' : AppConfig),
      loadConfigFile (lastPath sub) (found (lastPath sub)) = .ok config' →
      config'.tcpListenPort = config.tcpListenPort →
      (∃ e, subscribeArgs sub = .error e) ∨
        ∃ target, subscribeAddress found sub = .ok target ∧
          s.Listens dir .listenFd (target.within dir')) ∧
    ∀ (found : Bytes → Option Bytes) (tool : List Bytes), lastPath tool = lastPath args →
      found path = files path →
      loadConfigFile (lastPath tool) (found (lastPath tool)) = .ok config := by
  have hs : Serving (startupStmts config validHost) s :=
    h.inv (Serving _) (fun _ _ _ hu huv => serving_step hu huv)
      (serving_init (tidy_startupStmts config validHost))
  obtain ⟨done, hdone, htests, hserved⟩ := hs.served hmode
  rw [hloop, startupStmts] at hdone
  have hdone' : done = prepareStmts config validHost := List.append_cancel_right hdone
  subst hdone'
  obtain ⟨hlisten, hcontrol⟩ := of_prepareStmts config validHost
  have hpath : path = lastPath args := scanConfigArg_eq hargs
  refine ⟨?_, ?_, ?_⟩
  · intro found dir' ctl config' hload hsocket hdir
    have hfits : ¬ sizeofSunPath ≤ config'.controlSocket.length := by
      rw [hsocket]
      intro hle
      refine htests (ascii "control socket path is too long") ?_
      simp [prepareStmts, createControlSocket, Nat.not_lt.mpr hle]
    have hsame : (parseArgs ctl).configPath = lastPath ctl := by
      rw [parseArgs_eq]
      rfl
    obtain ⟨n, id, hhas, hn, hcalls⟩ := hserved.objs hcontrol
    refine ⟨.unix (sunPath config'.controlSocket), ?_, n, id, _, hhas, hn, hcalls, ?_⟩
    · rw [sensorctlAddress, hsame, hload]
      exact if_neg hfits
    · rw [hsocket]
      refine decide_eq_true (congrArg Address.unix ?_)
      rcases hdir with rfl | habsolute
      · rfl
      · exact absolutePath_sunPath habsolute dir dir'
  · intro found dir' sub config' hload hport
    cases hscan : subscribeArgs sub with
    | error e => exact Or.inl ⟨e, rfl⟩
    | ok chosen =>
        have hsame : chosen.1 = lastPath sub := scanSubscribe_path hscan
        obtain ⟨n, id, hhas, hn, hcalls⟩ := hserved.objs hlisten
        refine Or.inr ⟨.inet (some (ascii "127.0.0.1")) config'.tcpListenPort, ?_, n, id, _, hhas,
          hn, hcalls, ?_⟩
        · rw [subscribeAddress, hscan]
          show ((loadConfigFile chosen.1 (found chosen.1)).bind _) = _
          rw [hsame, hload]
          rfl
        · rw [hport]
          exact decide_eq_true rfl
  · intro found tool htool hfound
    rw [htool, ← hpath, hfound, hconfig]

/-- The daemon comes up with an empty configuration. -/
def comesUp : List BootLabel :=
  [.opened 3, .ok, .ok, .ok, .opened 4, .ok, .ok, .ok, .ok, .ok, .ok, .ok, .ok, .opened 5, .ok, .ok,
    .opened 6, .ok, .ok, .opened 7, .ok, .ok, .ok, .ok, .ok, .opened 8, .ok, .ok, .ok, .ok, .ok]

/-- What the tools find later: the file has been edited, but for other settings. -/
def edited : Bytes → Option Bytes := fun _ => some (ascii "sensor_interval_ms=100\n")

theorem tools_reach_daemon_comesUp :
    ∃ s, run bootStep (init (startupStmts {} true)) comesUp = some s ∧
      (∃ target, sensorctlAddress edited [ascii "stats"] = .ok target ∧
        s.Listens (ascii "/root") .controlFd (target.within (ascii "/root"))) ∧
      ∃ target, subscribeAddress edited [ascii "-n", ascii "3"] = .ok target ∧
        s.Listens (ascii "/root") .listenFd (target.within (ascii "/tmp")) := by
  obtain ⟨s, hs⟩ : ∃ s, run bootStep (init (startupStmts {} true)) comesUp = some s := ⟨_, rfl⟩
  have hloop : (run bootStep (init (startupStmts {} true)) comesUp).map
      (fun s => (s.mode, s.rest)) = some (.running, serveStmts) := rfl
  rw [hs, Option.map_some, Option.some.injEq, Prod.mk.injEq] at hloop
  obtain ⟨hctl, hsub, -⟩ := @tools_reach_daemon (fun _ => some []) [] defaultPath (ascii "/root")
    {} true s rfl rfl ⟨_, hs⟩ hloop.1 hloop.2
  have hload : ∀ p, loadConfigFile p (edited p) = .ok { sensorIntervalMs := 100 } := fun _ => rfl
  refine ⟨s, hs, hctl edited _ [ascii "stats"] _ (hload _) rfl (Or.inl rfl), ?_⟩
  rcases hsub edited (ascii "/tmp") [ascii "-n", ascii "3"] _ (hload _) rfl with ⟨e, he⟩ | hfound
  · cases he
  · exact hfound

end Boot

end SensorHub
