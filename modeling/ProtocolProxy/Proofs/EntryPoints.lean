import ProtocolProxy.EntryPoints

/-!
# When the two entry points start the same server

The readers differ on texts that are not plainly what they are to be: `(int)` takes a number from
the front of any text where Rust takes the default, `filter_var` takes an unknown word for false
where Rust takes the default, and `?:` takes `0` for an unset variable.  On every other value they
agree (`envInt_eq`, `envBool_eq`, `orElse_eq`), and so do the servers (`same_server`) unless the
timeouts are set, which only Rust reads.
-/

namespace ProtocolProxy

namespace Entry

open Digits

variable {files : PhpEntry.Files} {env : Env} {key : Var} {value : Text}

/-! ## One variable -/

theorem isWhitespace_of_isPlain (h : isPlain value = true) :
    ∀ c ∈ value, Trim.isWhitespace c = false := by
  obtain ⟨-, hds⟩ := isPlain_iff.1 h
  intro c hc
  by_cases hplus : c = '+'
  · subst hplus
    decide
  · have hmem : c ∈ stripPlus value := by
      rcases value with _ | ⟨d, value⟩
      · cases hc
      · by_cases hd : d = '+'
        · subst hd
          exact (List.mem_cons.1 hc).resolve_left hplus
        · rwa [stripPlus_cons value hd]
    obtain ⟨d, hd⟩ := Option.isSome_iff_exists.1 (hds c hmem)
    obtain ⟨hlt, rfl⟩ := eq_digitChar_of_toDigit hd
    interval_cases d <;> decide

theorem envInt_eq {bound default : ℕ} (hbound : 0 < bound) (hbound' : bound ≤ 2 ^ 64)
    (h : ∀ value, env key = some value →
      isPlain value = true ∧ Digits.value 10 0 (stripPlus value) < min bound (2 ^ 63)) :
    PhpEntry.envInt env key default = envUnsigned bound env key default := by
  unfold PhpEntry.envInt envUnsigned
  rcases hv : env key with _ | value
  · rfl
  · obtain ⟨hplain, hlt⟩ := h value hv
    have htrim : Trim.trim value = value := Trim.trimmed_eq_self (isWhitespace_of_isPlain hplain)
    simp only [Option.bind_some, htrim, Numeric.intCast_of_isPlain hplain,
      parseUnsigned_of_isPlain hplain hbound]
    rw [if_pos (by omega), Option.getD_some]
    omega

theorem orElse_eq {default : Text} (h : env key ≠ some ['0']) :
    PhpEntry.orElse (env key) default = envString env key default := by
  unfold PhpEntry.orElse envString
  rcases hv : env key with _ | value
  · rfl
  · have hne : value ≠ ['0'] := by
      rintro rfl
      exact h hv
    simp [hne]

theorem envString_nil : envString env key [] = (env key).getD [] := by
  unfold envString
  rcases env key with _ | value
  · rfl
  · cases value <;> rfl

theorem isWhitespace_of_isFilterBlank {c : Char} (h : PhpEntry.isFilterBlank c = true) :
    Trim.isWhitespace c = true := by
  simp only [PhpEntry.isFilterBlank, Bool.or_eq_true, decide_eq_true_eq] at h
  rcases h with (((rfl | rfl) | rfl) | rfl) | h
  all_goals first | decide | simp [Trim.isWhitespace, h]

theorem filterBoolean_eq
    (h : ∀ c ∈ value, Trim.isWhitespace c = true → PhpEntry.isFilterBlank c = true) :
    PhpEntry.filterBoolean value = truthy.contains ((Trim.trim value).map Char.toLower) := by
  have hsame : ∀ c ∈ value, PhpEntry.isFilterBlank c = Trim.isWhitespace c := fun c hc =>
    Bool.eq_iff_iff.2 ⟨isWhitespace_of_isFilterBlank, h c hc⟩
  unfold PhpEntry.filterBoolean Trim.trim
  rw [Trim.trimmed_congr hsame]

theorem envBool_eq {default : Bool}
    (h : ∀ value, env key = some value → ∀ c ∈ value,
      Trim.isWhitespace c = true → PhpEntry.isFilterBlank c = true)
    (hdefault : default = true → ∀ value, env key = some value →
      (truthy ++ falsy).contains ((Trim.trim value).map Char.toLower) = true) :
    PhpEntry.envBool env key default = envBool env key default := by
  unfold PhpEntry.envBool envBool
  rcases hv : env key with _ | value
  · rfl
  · simp only [filterBoolean_eq (h value hv)]
    split_ifs with htruthy hfalsy
    · exact htruthy
    · simpa using htruthy
    · -- a word that neither list has: only a default of false is what `filter_var` gives
      have hunknown : default = false := by
        by_contra hd
        have := hdefault (by simpa using hd) value hv
        simp_all
      simpa [hunknown] using htruthy

/-! ## The servers -/

section

variable (h : Portable files env)

include h

theorem Portable.envBool (key : Var) (hkind : key.kind = .flag) :
    PhpEntry.envBool env key false = Entry.envBool env key false :=
  envBool_eq (fun value hv => h.flag key value hkind hv) (by simp)

theorem Portable.envU16 (key : Var) (default : ℕ) (hkind : key.kind = .port) :
    PhpEntry.envInt env key default = Entry.envU16 env key default :=
  envInt_eq (by omega) (by omega) fun value hv => by
    obtain ⟨hplain, hlt⟩ := h.port key value hkind hv
    exact ⟨hplain, by omega⟩

theorem Portable.envUsize (key : Var) (default : ℕ) (hkind : key.kind = .number) :
    PhpEntry.envInt env key default = Entry.envUsize env key default :=
  envInt_eq (by omega) (by omega) fun value hv => by
    obtain ⟨hplain, hlt⟩ := h.number key value hkind hv
    exact ⟨hplain, by omega⟩

theorem Portable.orElse (key : Var) (default : Text) (hkind : key.kind = .text) :
    PhpEntry.orElse (env key) default = envString env key default :=
  orElse_eq (h.text key hkind)

theorem Portable.orElse_nil (key : Var) (hkind : key.kind = .text) :
    PhpEntry.orElse (env key) [] = (env key).getD [] :=
  (h.orElse key [] hkind).trans envString_nil

theorem Portable.tls : PhpEntry.tls env = buildTls env := by
  have henabled := h.envBool .proxyTlsEnabled rfl
  have hrequire := h.envBool .proxyTlsRequireClientCert rfl
  simp (disch := decide) only [PhpEntry.tls, buildTls, henabled, hrequire, h.orElse_nil]
  rcases Entry.envBool env .proxyTlsEnabled false with _ | _
  · rfl
  · simp [List.isEmpty_iff]

theorem Portable.envF64 (key : Var) (default : Double) (hkind : key.kind = .seconds) :
    Entry.envF64 env key default = default := by
  simp [Entry.envF64, h.seconds key hkind]

theorem Portable.startTcp (cpus : ℕ) : PhpEntry.startTcp env cpus = runTcp env cpus := by
  have hpostgres : PhpEntry.envInt env .tcpPostgresPort 5432 = _ :=
    h.envU16 .tcpPostgresPort 5432 rfl
  have hmysql : PhpEntry.envInt env .tcpMysqlPort 3306 = _ := h.envU16 .tcpMysqlPort 3306 rfl
  have hworkers := h.envUsize .tcpWorkers cpus rfl
  have hpositive : ∀ a b : ℕ, [(a : ℤ), (b : ℤ)].filter (0 < ·)
      = ([a, b].filter (0 < ·)).map (↑) := by
    intro a b
    have hmap : [(a : ℤ), (b : ℤ)] = [a, b].map (↑) := rfl
    rw [hmap, List.filter_map]
    simp [Function.comp_def]
  have htimeout : fromSecsF64 (Double.finite false 30 1).maxZero = .ok (30 * 10 ^ 9) := rfl
  have hconnect : fromSecsF64 (Double.finite false 5 1).maxZero = .ok (5 * 10 ^ 9) := rfl
  simp (disch := decide) only [PhpEntry.startTcp, runTcp, h.tls, hpostgres, hmysql, hworkers,
    hpositive, h.envBool, h.orElse_nil, h.envF64, htimeout, hconnect, List.isEmpty_map]
  rcases buildTls env with e | tls
  · rfl
  · simp only [Except.map, bind, Except.bind, pure, Except.pure]
    congr 2
    split_ifs <;> rfl

theorem Portable.startHttp (cpus : ℕ) : PhpEntry.startHttp env cpus = runHttp env cpus := by
  have hport : PhpEntry.envInt env .httpPort 8080 = _ := h.envU16 .httpPort 8080 rfl
  have hworkers : PhpEntry.envInt env .httpWorkers (cpus * 2)
      = Entry.envUsize env .httpWorkers (cpus * 2) := by
    exact_mod_cast h.envUsize .httpWorkers (cpus * 2) rfl
  have hpool : PhpEntry.envInt env .httpBackendPoolSize 2048 = _ :=
    h.envUsize .httpBackendPoolSize 2048 rfl
  have hkeepalive : PhpEntry.envInt env .httpKeepaliveTimeout 60 = _ :=
    h.envUsize .httpKeepaliveTimeout 60 rfl
  have hfast : PhpEntry.envBool env .httpFastPath true = _ :=
    envBool_eq (fun value hv => h.flag .httpFastPath value rfl hv) fun _ => h.fastPath
  simp (disch := decide) only [PhpEntry.startHttp, runHttp, hport, hworkers, hpool, hkeepalive,
    hfast, h.envBool]
  rfl

theorem Portable.startSmtp (cpus : ℕ) : PhpEntry.startSmtp env cpus = runSmtp env cpus := by
  have hport : PhpEntry.envInt env .smtpPort 25 = _ := h.envU16 .smtpPort 25 rfl
  have hworkers : PhpEntry.envInt env .smtpWorkers (cpus * 2)
      = Entry.envUsize env .smtpWorkers (cpus * 2) := by
    exact_mod_cast h.envUsize .smtpWorkers (cpus * 2) rfl
  simp (disch := decide) only [PhpEntry.startSmtp, runSmtp, hport, hworkers, h.envBool]

theorem Portable.resolver (protocol : Protocol) :
    PhpEntry.resolver files env protocol = .ok (buildResolver env protocol) := by
  have hkind : protocol.endpointEnv.kind = .text := by cases protocol <;> rfl
  simp [PhpEntry.resolver, h.noFile, h.orElse _ _ hkind, buildResolver]

theorem Portable.start (cpus : ℕ) (protocol : Protocol) :
    PhpEntry.start files env cpus protocol = Entry.start env cpus protocol := by
  unfold PhpEntry.start Entry.start
  rw [h.resolver, h.startTcp, h.startHttp, h.startSmtp]
  rfl

/-- Both find the same protocol, or none: in the command, in the environment or by default. -/
theorem Portable.protocolName (command : Option Protocol) :
    Protocol.ofName (PhpEntry.protocolName env (command.map Protocol.name))
      = (resolveProtocol env command).toOption := by
  rcases command with _ | protocol
  · have hname := h.orElse .proxyProtocol "tcp".toList rfl
    unfold PhpEntry.protocolName
    rw [Option.map_none, Option.none_or, hname]
    unfold envString resolveProtocol
    rcases env .proxyProtocol with _ | fromEnv
    · rfl
    · rcases fromEnv with _ | ⟨c, fromEnv⟩
      · rfl
      · simp only [List.isEmpty_cons, Bool.false_eq_true, if_false, parseName]
        rcases Protocol.ofName ((c :: fromEnv).map Char.toLower) with _ | protocol <;> rfl
  · cases protocol <;> rfl

omit h in
theorem parseCommand_name (command : Option Protocol) :
    parseCommand (command.map Protocol.name) = .ok command := by
  rcases command with _ | protocol
  · rfl
  · cases protocol <;> rfl

/-- From a portable environment, with the name of a protocol on the command line or without one,
both entry points start the same server with the same settings, or none. -/
theorem same_server (cpus : ℕ) (command : Option Protocol) :
    (main env cpus (command.map Protocol.name)).toOption
      = (PhpEntry.main files env cpus (command.map Protocol.name)).toOption := by
  have hprotocol := h.protocolName command
  simp only [main, PhpEntry.main, parseCommand_name]
  rcases hr : resolveProtocol env command with e | protocol <;> rw [hr] at hprotocol
  · rw [hprotocol]
    simp [bind, Except.bind, hr, Except.toOption]
  · rw [hprotocol]
    simp [bind, Except.bind, hr, Except.toOption, h.start]

end

/-- One port switched off, and a flag with blanks around it. -/
def onePort : Env
  | .tcpPostgresPort => some ['+', '1', '5', '4', '3', '2']
  | .tcpMysqlPort => some ['0']
  | .tcpSkipValidation => some [' ', 'Y', 'e', 's', '\n']
  | _ => none

def noFiles : PhpEntry.Files := ⟨fun _ => false, fun _ => false⟩

theorem portable_onePort : Portable noFiles onePort where
  noFile := rfl
  text := by
    intro key hkind
    cases key <;> cases hkind <;> simp [onePort]
  flag := by
    intro key value hkind hv
    cases key <;> cases hkind <;> cases hv
    simp [Trim.isWhitespace, PhpEntry.isFilterBlank]
  fastPath := by
    intro value hv
    cases hv
  port := by
    intro key value hkind hv
    cases key <;> cases hkind <;> cases hv <;>
      simp [isPlain, stripPlus, toDigit, Digits.value]
  number := by
    intro key value hkind hv
    cases key <;> cases hkind <;> cases hv
  seconds := by
    intro key hkind
    cases key <;> cases hkind <;> rfl

theorem same_server_onePort : ∃ settings : TcpSettings, settings.ports = [15432]
    ∧ (main onePort 4 none).toOption
      = some (.tcp (.fixed "127.0.0.1:5432".toList) settings)
    ∧ (PhpEntry.main noFiles onePort 4 none).toOption
      = some (.tcp (.fixed "127.0.0.1:5432".toList) settings) := by
  have hrust : ∃ settings : TcpSettings, settings.ports = [15432]
      ∧ (main onePort 4 none).toOption
        = some (.tcp (.fixed "127.0.0.1:5432".toList) settings) := ⟨_, rfl, rfl⟩
  obtain ⟨settings, hports, hrust⟩ := hrust
  exact ⟨settings, hports, hrust, (same_server portable_onePort 4 none).symm.trans hrust⟩

/-- A timeout that is longer than any `Duration`: one of the two starts no server. -/
def longTimeout : Env
  | .tcpTimeout => some "99999999999999999999".toList
  | _ => none

example : (main longTimeout 4 none).toOption.isSome = false
    ∧ (PhpEntry.main noFiles longTimeout 4 none).toOption.isSome = true := by
  decide

end Entry

end ProtocolProxy
