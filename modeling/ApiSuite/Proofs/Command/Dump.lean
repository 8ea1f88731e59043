import ApiSuite.Command.Run
import ApiSuite.Files.Disk
import ApiSuite.Proofs.Json.Encode

/-!
# Checking a file and dumping it

To check a file is to load the suite in it. To dump it is to write the suite as JSON as well, which
takes more than a check looks at: the keys of the mappings in the suite have to be such as names of
members can be.
-/

namespace ApiSuite

variable {disk : Files.Disk} {path : String} {bytes : List UInt8}

theorem load_eq_parse (h : disk.find path = .ok (.file bytes)) :
    Id.run (load disk.system path) = parse bytes := by
  have hread : disk.system.read path = .ok bytes := by
    simp [Files.Disk.system, h]
  simp [load, hread]
  rfl

namespace Command

variable {outline colours colours' : Bool} {scope : Scope}

theorem status_check_eq_zero_iff (h : disk.find path = .ok (.file bytes)) :
    (Id.run ((check path outline scope).run disk.system colours)).status = 0 ↔
      ∃ suite, parse bytes = .ok suite := by
  have hfile : Id.run (disk.system.isFile path) = true := by
    simp only [Files.Disk.system, h]
    rfl
  have hload : load disk.system path = parse bytes := load_eq_parse h
  have hpaths : checkPaths disk.system path scope = (pure (.ok [path]) : Id _) := by
    change (if Id.run (disk.system.isFile path) = true then _ else _) = _
    rw [if_pos hfile]
  have hrun : Id.run ((check path outline scope).run disk.system colours) =
      .ofCheck ⟨outline, 60, colours⟩ [(path, parse bytes)] := by
    rw [run, hpaths, ← hload]
    rfl
  rw [hrun]
  cases parse bytes <;> simp [Outcome.ofCheck, Except.isOk, Except.toBool]

theorem status_dump_eq_zero_iff (h : disk.find path = .ok (.file bytes)) :
    (Id.run ((dump path).run disk.system colours)).status = 0 ↔
      ∃ suite, parse bytes = .ok suite ∧ suite.HasJsonForm := by
  have hload := load_eq_parse h
  have hrun : Id.run ((dump path).run disk.system colours) = .ofDump path (parse bytes) := by
    rw [← hload]
    rfl
  rw [hrun]
  cases parse bytes with
  | error error => simp [Outcome.ofDump]
  | ok suite =>
      simp only [Outcome.ofDump, Except.ok.injEq, exists_eq_left', ← Suite.exists_dump_eq_ok_iff]
      cases suite.dump with
      | error fault => simp [Outcome.ofFailure]
      | ok text => simp

/-- A file that checks clean can be dumped if the keys in the values of its suite can be the names of
members, and only then. -/
theorem status_dump_iff_status_check (h : disk.find path = .ok (.file bytes)) :
    ((Id.run ((dump path).run disk.system colours)).status = 0 ↔
      (Id.run ((check path outline scope).run disk.system colours')).status = 0
        ∧ ∀ suite, parse bytes = .ok suite → suite.HasJsonForm)
    ∧ ∀ suite, parse bytes = .ok suite → ((∃ text, suite.dump = .ok text) ↔ suite.HasJsonForm) := by
  refine ⟨?_, fun suite _ => Suite.exists_dump_eq_ok_iff⟩
  rw [status_dump_eq_zero_iff h, status_check_eq_zero_iff h]
  constructor
  · rintro ⟨suite, hsuite, hform⟩
    refine ⟨⟨suite, hsuite⟩, fun suite' hsuite' => ?_⟩
    obtain rfl := Except.ok.inj (hsuite.symm.trans hsuite')
    exact hform
  · rintro ⟨⟨suite, hsuite⟩, hform⟩
    exact ⟨suite, hsuite, hform suite hsuite⟩

/-- A suite with a null among the keys of a body. -/
def nullKeyed : List UInt8 :=
  Yaml.asciiOctets ("\x7bname: s, tests: [\x7bname: t, steps: [" ++
    "\x7bname: p, plugin: http, config: \x7burl: u, body: \x7b~: 1\x7d\x7d\x7d]\x7d]\x7d").toList

def diskWith (bytes : List UInt8) : Files.Disk :=
  ⟨.dir [("s", .file bytes)], []⟩

theorem status_dump_iff_status_check_nullKeyed :
    (diskWith nullKeyed).find "s" = .ok (.file nullKeyed)
    ∧ ((Id.run ((dump "s").run (diskWith nullKeyed).system false)).status = 0 ↔
      (Id.run ((check "s" false ⟨none, none, false, none⟩).run
        (diskWith nullKeyed).system false)).status = 0
        ∧ ∀ suite, parse nullKeyed = .ok suite → suite.HasJsonForm) :=
  ⟨rfl, (status_dump_iff_status_check rfl).1⟩

theorem parse_nullKeyed : ∃ suite fault, parse nullKeyed = .ok suite ∧ suite.dump = .error fault := by
  have hparse : (parse nullKeyed).toOption.any (!·.dump.isOk) = true := by
    decide +kernel
  obtain ⟨suite, hsuite, hfails⟩ := (Option.any_eq_true _ _).mp hparse
  refine ⟨suite, ?_⟩
  cases hdump : suite.dump with
  | error fault => exact ⟨fault, toOption_eq_some_iff.mp hsuite, rfl⟩
  | ok text => simp [hdump, Except.isOk, Except.toBool] at hfails

/-- A file can check clean and not be dumped. -/
theorem not_status_dump_iff_status_check_nullKeyed :
    ¬ ∀ (disk : Files.Disk) (path : String) (bytes : List UInt8),
      disk.find path = .ok (.file bytes) →
      ((Id.run ((check path false ⟨none, none, false, none⟩).run disk.system false)).status = 0 ↔
        (Id.run ((dump path).run disk.system false)).status = 0) := by
  intro h
  obtain ⟨suite, fault, hsuite, hdump⟩ := parse_nullKeyed
  have hfile : (diskWith nullKeyed).find "s" = .ok (.file nullKeyed) := rfl
  have hdumped := (h _ _ _ hfile).mp ((status_check_eq_zero_iff hfile).mpr ⟨suite, hsuite⟩)
  obtain ⟨suite', hsuite', hform⟩ := (status_dump_eq_zero_iff hfile).mp hdumped
  obtain rfl := Except.ok.inj (hsuite.symm.trans hsuite')
  obtain ⟨text, htext⟩ := Suite.exists_dump_eq_ok_iff.mpr hform
  rw [hdump] at htext
  cases htext

end Command

end ApiSuite
