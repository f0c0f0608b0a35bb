import SenseGateway.Files.Damage
import SenseGateway.Python.JsonStored
import SenseGateway.Storage.Replacing

namespace SenseGateway.Files

open Python Storage SenseGateway.Configuration

/-- The codec that `write_text` and `read_text` take from the platform. Whichever it is, texts in
ASCII come back as they are. -/
structure Codec where
  encode : String → Except String (List UInt8)
  decode : List UInt8 → Except String String
  ascii : ∀ text, IsAscii text.toList → ∃ bytes, encode text = .ok bytes ∧ decode bytes = .ok text

section codec

variable (C : Codec) (depth : ℕ)

/-- The bytes that `path.write_text(json.dumps(value))` puts into a file. -/
def Codec.Written (value : Json) (bytes : List UInt8) : Prop :=
  ∃ text, dumps .default depth value = .ok text ∧ C.encode text = .ok bytes

variable {C depth}

theorem exists_written {value : Json} (h : value.Fits depth) : ∃ bytes, C.Written depth value bytes := by
  obtain ⟨text, hdumps, -⟩ := exists_dumps_of_fits .default h
  obtain ⟨bytes, hencode, -⟩ := C.ascii text (isAscii_dumps h.wellFormed hdumps)
  exact ⟨bytes, text, hdumps, hencode⟩

/-- What has been written of a value is read as this value. -/
theorem readJson_written {value : Json} (hvalue : value.WellFormed) {bytes : List UInt8}
    (h : C.Written depth value bytes) : readJson C.decode depth (.content bytes) = .ok value := by
  obtain ⟨text, hdumps, hencode⟩ := h
  obtain ⟨bytes', hencode', hdecode⟩ := C.ascii text (isAscii_dumps hvalue hdumps)
  obtain rfl := Except.ok.inj (hencode.symm.trans hencode')
  simp [readJson, hdecode, loads_dumps le_rfl hvalue hdumps, Except.mapError]

theorem tryRead_written {value : Json} (hvalue : value.WellFormed) {bytes : List UInt8}
    (h : C.Written depth value bytes) : tryRead C.decode depth (.content bytes) = .ok (some value) := by
  rw [tryRead, readJson_written hvalue h]

theorem readConfigCache_written {value : Json} (hvalue : value.WellFormed) {bytes : List UInt8}
    (h : C.Written depth value bytes) : readConfigCache C.decode depth (.content bytes) = .ok value := by
  rw [readConfigCache_eq, tryRead_written hvalue h]
  rfl

end codec

section sample

def encodeAscii (text : String) : Except String (List UInt8) :=
  if text.toList.all fun c => c.toNat < 0x80 then .ok (text.toList.map fun c => UInt8.ofNat c.toNat)
  else .error "'ascii' codec can't encode characters: ordinal not in range(128)"

theorem decodeAscii_encodeAscii {text : String} (h : IsAscii text.toList) :
    ∃ bytes, encodeAscii text = .ok bytes ∧ decodeAscii bytes = .ok text := by
  have hall : (text.toList.all fun c => c.toNat < 0x80) = true :=
    List.all_eq_true.mpr fun c hc => decide_eq_true (h c hc)
  have hbyte {c : Char} (hc : c.toNat < 0x80) : (UInt8.ofNat c.toNat).toNat = c.toNat := by
    rw [UInt8.toNat_ofNat']
    omega
  refine ⟨_, if_pos hall, ?_⟩
  have hsmall : ((text.toList.map fun c => UInt8.ofNat c.toNat).all fun b => b < 0x80) = true := by
    rw [List.all_eq_true]
    intro b hb
    obtain ⟨c, hc, rfl⟩ := List.mem_map.mp hb
    rw [decide_eq_true_eq, UInt8.lt_iff_toNat_lt, hbyte (h c hc)]
    exact h c hc
  have hback : (text.toList.map fun c => UInt8.ofNat c.toNat).map (fun b => Char.ofNat b.toNat) =
      text.toList := by
    rw [List.map_map]
    conv_rhs => rw [← List.map_id text.toList]
    refine List.map_congr_left fun c hc => ?_
    rw [Function.comp_apply, hbyte (h c hc), Char.ofNat_toNat, id]
  rw [decodeAscii, if_pos hsmall, hback, String.ofList_toList]

def asciiCodec : Codec := ⟨encodeAscii, decodeAscii, fun _ h => decodeAscii_encodeAscii h⟩

/-- A disk without either file, and one reader. -/
def emptyWorld : World UInt8 Unit := ⟨⟨fun _ => [], 0, none, none⟩, none, fun _ => none⟩

theorem emptyWorld_quiet : Quiet emptyWorld := ⟨nofun, nofun, rfl, fun _ => rfl⟩

/-- A text is written in one go and then read in one go. -/
theorem exists_run_writing (bytes : List UInt8) : ∃ v, Run emptyWorld
    [.silent, .silent, .published bytes, .opened (), .silent, .finished () bytes] v := by
  have hall : bytes = bytes ++ [] := (List.append_nil bytes).symm
  have hstart := Run.snoc (.refl emptyWorld) (.start bytes rfl)
  have happend := hstart.snoc
    (.append bytes [] (congrArg (fun rest => some (Write.mk 0 bytes rest)) hall))
  have hpublish := happend.snoc (.publish rfl)
  have hopen := hpublish.snoc (.open () rfl)
  have hread := hopen.snoc (.read () bytes.length rfl)
  refine ⟨_, hread.snoc (.finish () (f := 0) ?_ ?_)⟩ <;>
    simp [emptyWorld, Disk.openTemporary, Disk.append, Disk.replace]

end sample

section tearing

variable {R : Type} [DecidableEq R]

theorem value_after {g : Register UInt8 R} {es : List (Event UInt8 R)} {bytes : List UInt8}
    (h : (g.after es).value = some bytes) : .published bytes ∈ es ∨ g.value = some bytes := by
  induction es using List.reverseRecOn with
  | nil => exact .inr h
  | append_singleton es e ih =>
    rw [Register.after, List.foldl_append, List.foldl_cons, List.foldl_nil] at h
    -- only what is published last matters, and only a publication changes the value
    cases e with
    | published text =>
      obtain rfl := Option.some.inj h
      exact .inl (by simp)
    | _ => exact (ih h).imp_left (List.mem_append_left _)

/-- A reader that gets to the end has what was put in place last before it opened the file. -/
theorem finished_last {w v : World UInt8 R} {es : List (Event UInt8 R)} (hr : Run w es v) (hw : Quiet w)
    {before between : List (Event UInt8 R)} {r : R} {bytes : List UInt8} (hopen : .opened r ∉ between)
    (h : before ++ .opened r :: between ++ [.finished r bytes] <+: es) :
    (w.register.after before).value = some bytes ∧
      (w.register.value = some bytes ∨ .published bytes ∈ es) := by
  have hseen := hr.finished hw h
  rw [Register.seen_after _ hopen] at hseen
  refine ⟨hseen, (value_after hseen).symm.imp_right fun hmem => ?_⟩
  exact h.subset (List.mem_append_left _ (List.mem_append_left _ hmem))

/-- Every text that is published was written of a configuration that some response held. -/
def CachesDownloads (C : Codec) (depth : ℕ) (es : List (Event UInt8 R)) : Prop :=
  ∀ bytes, .published bytes ∈ es →
    ∃ body configuration, loads depth body = .ok configuration ∧ C.Written depth configuration bytes

/-- However writes, readers and stops of the writer interleave, a reader of `config_cache.json` that
gets to the end of the file has the whole text that was put in place last before it opened it, and
`read_config_cache` makes the downloaded configuration of it; a file that is there stays there. -/
theorem cache_never_torn (C : Codec) (depth : ℕ) {w v : World UInt8 R} {es : List (Event UInt8 R)}
    (hr : Run w es v) (hw : Quiet w) (hes : CachesDownloads C depth es)
    {before between : List (Event UInt8 R)} {r : R} {bytes : List UInt8} (hopen : .opened r ∉ between)
    (h : before ++ .opened r :: between ++ [.finished r bytes] <+: es) :
    (w.register.after before).value = some bytes ∧
      (w.register.value = some bytes ∨ ∃ body configuration, loads depth body = .ok configuration ∧
        C.Written depth configuration bytes ∧
        readConfigCache C.decode depth (.content bytes) = .ok configuration) ∧
      (w.disk.shared.isSome = true → v.disk.shared.isSome = true) := by
  obtain ⟨hlast, hbytes⟩ := finished_last hr hw hopen h
  refine ⟨hlast, hbytes.imp_right fun hmem => ?_, hr.shared⟩
  obtain ⟨body, configuration, hloads, hwritten⟩ := hes bytes hmem
  exact ⟨body, configuration, hloads, hwritten,
    readConfigCache_written (loads_fits hloads).wellFormed hwritten⟩

theorem cache_never_torn_sample : ∃ bytes configuration,
    asciiCodec.Written 2 (.obj [("success", .bool true)]) bytes ∧
      readConfigCache decodeAscii 2 (.content bytes) = .ok configuration := by
  have hloads : loads 2 "\x7b\"success\":true\x7d" = .ok (.obj [("success", .bool true)]) := by
    decide +kernel
  obtain ⟨bytes, hwritten⟩ := exists_written (C := asciiCodec) (loads_fits hloads)
  obtain ⟨v, hr⟩ := exists_run_writing bytes
  have hes : CachesDownloads asciiCodec 2 ([.silent, .silent, .published bytes, .opened (), .silent,
      .finished () bytes] : List (Event UInt8 Unit)) := by
    intro text hmem
    obtain rfl : text = bytes := by simpa using hmem
    exact ⟨_, _, hloads, hwritten⟩
  have hopen : (.opened () : Event UInt8 Unit) ∉ [.silent] := by simp
  have hall : [.silent, .silent, .published bytes] ++ .opened () :: [.silent] ++ [.finished () bytes] <+:
      ([.silent, .silent, .published bytes, .opened (), .silent, .finished () bytes] :
        List (Event UInt8 Unit)) := List.prefix_rfl
  obtain ⟨-, hinitial | ⟨body, configuration, -, -, hread⟩, -⟩ :=
    cache_never_torn asciiCodec 2 hr emptyWorld_quiet hes hopen hall
  · cases hinitial
  · exact ⟨bytes, configuration, hwritten, hread⟩

end tearing

section status

variable {R : Type} [DecidableEq R] {settings : Poller.Settings}

/-- The object `write_device_status` writes. -/
def statusObject (snapshot : Health.Snapshot) : Json := .obj (snapshot.map fun e => (e.1, .str e.2))

theorem statusObject_fits (depth : ℕ) (status : Dict ℤ String) :
    (statusObject (Health.payload status)).Fits (depth + 1) := by
  refine .obj ?_ ?_
  · have hkeys : ((Health.payload status).map fun e => (e.1, Json.str e.2)).map Prod.fst =
        status.keys.map toString := by
      simp [Health.payload, Dict.keys]
    rw [hkeys]
    exact status.nodup.map fun _ _ h => toString_int_injective h
  · intro field hfield
    obtain ⟨entry, -, rfl⟩ := List.mem_map.mp hfield
    exact .str depth entry.2

/-- Every text that is published is the snapshot of a turn of the main loop that writes one. -/
def PublishesSnapshots (C : Codec) (depth : ℕ) (cycles : List (Health.Cycle settings))
    (es : List (Event UInt8 R)) : Prop :=
  ∀ bytes, .published bytes ∈ es → ∃ before c snapshot, before ++ [c] <+: cycles ∧
    (Health.Monitor.run before).Writes c ∧
    ((Health.Monitor.run before).turn c).deviceStatusFile = some snapshot ∧
    C.Written (depth + 1) (statusObject snapshot) bytes

/-- The health reporter, whenever it reads, counts the devices that were connected and those that had
failed at one and the same turn of the main loop, the one that wrote the text that was put in place
last. -/
theorem counts_of_one_turn (C : Codec) (depth : ℕ) {cycles : List (Health.Cycle settings)}
    {w v : World UInt8 R} {es : List (Event UInt8 R)} (hr : Run w es v) (hw : Quiet w)
    (hes : PublishesSnapshots C depth cycles es) {before between : List (Event UInt8 R)} {r : R}
    {bytes : List UInt8} (hopen : .opened r ∉ between)
    (h : before ++ .opened r :: between ++ [.finished r bytes] <+: es) :
    (w.register.after before).value = some bytes ∧
      (w.register.value = some bytes ∨ ∃ turns c, turns ++ [c] <+: cycles ∧
        (Health.Monitor.run turns).Writes c ∧
        C.Written (depth + 1)
          (statusObject (Health.payload ((Health.Monitor.run turns).turn c).deviceStatus)) bytes ∧
        readDeviceCounts C.decode (depth + 1) (.content bytes) =
          .ok (((Health.Monitor.run turns).turn c).deviceStatus.values.count "connected",
            ((Health.Monitor.run turns).turn c).deviceStatus.values.count "failed")) := by
  obtain ⟨hlast, hbytes⟩ := finished_last hr hw hopen h
  refine ⟨hlast, hbytes.imp_right fun hmem => ?_⟩
  obtain ⟨turns, c, snapshot, hturns, hwrites, hsnapshot, hwritten⟩ := hes bytes hmem
  have hstatus : ((Health.Monitor.run turns).turn c).deviceStatus =
      Health.statusAfter (Health.Monitor.run turns).deviceStatus c.events := by
    obtain ⟨hout, -, hdue⟩ := hwrites
    simp [Health.Monitor.turn, hout, hdue]
  rw [Health.turn_deviceStatusFile hwrites] at hsnapshot
  obtain rfl := Option.some.inj hsnapshot
  refine ⟨turns, c, hturns, hwrites, hstatus ▸ hwritten, ?_⟩
  rw [readDeviceCounts_snapshot (tryRead_written (statusObject_fits depth _).wellFormed hwritten),
    hstatus]
  simp [Health.readDeviceCounts, Health.payload, Dict.values, Function.comp_def]

theorem counts_of_one_turn_sample : ∃ bytes,
    asciiCodec.Written 1 (statusObject [("1", "failed")]) bytes ∧
    ∃ turns c, turns ++ [c] <+: [Health.friendlyCycle 1 (.finite 10)] ∧
      (Health.Monitor.run turns).Writes c ∧
      asciiCodec.Written 1
        (statusObject (Health.payload ((Health.Monitor.run turns).turn c).deviceStatus)) bytes ∧
      readDeviceCounts decodeAscii 1 (.content bytes) =
        .ok (((Health.Monitor.run turns).turn c).deviceStatus.values.count "connected",
          ((Health.Monitor.run turns).turn c).deviceStatus.values.count "failed") := by
  have hfits : (statusObject [("1", "failed")]).Fits 1 :=
    .obj (by decide) (by simpa using Json.Fits.str 0 "failed")
  obtain ⟨bytes, hwritten⟩ := exists_written (C := asciiCodec) hfits
  obtain ⟨v, hr⟩ := exists_run_writing bytes
  have hes : PublishesSnapshots asciiCodec 0 [Health.friendlyCycle 1 (.finite 10)] ([.silent, .silent,
      .published bytes, .opened (), .silent, .finished () bytes] : List (Event UInt8 Unit)) := by
    intro text hmem
    obtain rfl : text = bytes := by simpa using hmem
    refine ⟨[], Health.friendlyCycle 1 (.finite 10), [("1", "failed")], List.prefix_rfl, ?_, ?_,
      hwritten⟩
    · unfold Health.Monitor.Writes
      decide +kernel
    · decide +kernel
  have hopen : (.opened () : Event UInt8 Unit) ∉ [.silent] := by simp
  have hall : [.silent, .silent, .published bytes] ++ .opened () :: [.silent] ++ [.finished () bytes] <+:
      ([.silent, .silent, .published bytes, .opened (), .silent, .finished () bytes] :
        List (Event UInt8 Unit)) := List.prefix_rfl
  obtain ⟨-, hinitial | hread⟩ := counts_of_one_turn asciiCodec 0 hr emptyWorld_quiet hes hopen hall
  · cases hinitial
  · exact ⟨bytes, hwritten, hread⟩

end status

section restarting

/-- What one iteration of the refresh loop meets, with the text of the response. -/
structure Download where
  currentTime : PyFloat
  body : PyExcept String
  cacheWrite : PyExcept Unit

/-- The iteration it is. The message of a text that is no document is only logged. -/
def Download.iteration (depth : ℕ) (d : Download) : Iteration where
  currentTime := d.currentTime
  response := do (loads depth (← d.body)).mapError fun _ => ⟨.requestException, ""⟩
  cacheWrite := d.cacheWrite

/-- The configuration an iteration writes to the cache file, if it writes one. -/
def cached (s : Gateway) (iteration : Iteration) : Option Json :=
  if s.isDue iteration.currentTime then
    match downloadConfiguration iteration.response, iteration.cacheWrite with
    | .ok configuration, .ok () => some configuration
    | _, _ => none
  else none

/-- The iteration together with the file on the disk: bytes replace it, or nothing does. -/
def iterateOnDisk (C : Codec) (depth : ℕ) (s : Gateway × SharedFile) (d : Download) :
    Gateway × SharedFile :=
  (s.1.iterate (d.iteration depth),
    match cached s.1 (d.iteration depth) with
    | none => s.2
    | some configuration =>
      match dumps .default depth configuration with
      | .error _ => s.2
      | .ok text =>
        match C.encode text with
        | .error _ => s.2
        | .ok bytes => .content bytes)

theorem downloadConfiguration_eq_ok {response : PyExcept Json} {configuration : Json}
    (h : downloadConfiguration response = .ok configuration) :
    response = .ok configuration ∧ configuration.truthy = true := by
  obtain ⟨value, hresponse, h⟩ := bind_eq_ok.mp h
  obtain ⟨success, hsuccess, h⟩ := bind_eq_ok.mp h
  split at h
  · cases h
  · rename_i htruthy
    obtain rfl := Except.ok.inj h
    refine ⟨hresponse, ?_⟩
    obtain ⟨fields, rfl, hlookup⟩ := Json.get_eq_ok_iff.mp hsuccess
    cases fields with
    | nil =>
      rw [← hlookup] at htruthy
      exact absurd rfl htruthy
    | cons field fields => rfl

/-- The file holds what the gateway takes to be in it, and that is its current configuration; it holds
the rules of that configuration as far as they can be held. -/
structure Restartable (C : Codec) (depth : ℕ) (s : Gateway) (file : SharedFile) : Prop where
  file : ∃ configuration, readConfigCache C.decode depth file = .ok configuration ∧
    s.currentConfiguration = configuration.orElse (.obj [])
  rules : ∀ rules, (s.currentConfiguration.get "alarm_rules" >>= rulesToHold) = .ok rules →
    s.evaluator.alarmRules = rules

variable {C : Codec} {depth : ℕ}

theorem startup_restartable {file : SharedFile} {configuration : Json} {s : Gateway}
    (hread : readConfigCache C.decode depth file = .ok configuration)
    (hs : startup (some configuration) = .ok s) : Restartable C depth s file := by
  obtain ⟨rules, hheld, hcurrent, hrules⟩ := startup_ok hs
  refine ⟨⟨configuration, hread, hcurrent⟩, fun rules' h' => ?_⟩
  rw [hcurrent, hheld] at h'
  exact hrules.trans (Except.ok.inj h')

/-- What is downloaded has been read from a text, and can be written. -/
theorem Download.fits {d : Download} {configuration : Json}
    (h : (d.iteration depth).response = .ok configuration) : configuration.Fits depth := by
  obtain ⟨text, -, hloads⟩ := bind_eq_ok.mp h
  cases hread : loads depth text with
  | error f => simp [hread, Except.mapError] at hloads
  | ok value =>
    rw [hread] at hloads
    obtain rfl := Except.ok.inj hloads
    exact loads_fits hread

/-- One iteration that does not fail to write the file. -/
theorem iterateOnDisk_restartable {s : Gateway} {file : SharedFile} (h : Restartable C depth s file)
    {d : Download} (hwrite : d.cacheWrite = .ok ()) :
    Restartable C depth (iterateOnDisk C depth (s, file) d).1 (iterateOnDisk C depth (s, file) d).2 := by
  unfold iterateOnDisk cached Gateway.iterate
  dsimp only
  split
  · rename_i hdue
    unfold refresh
    have hcacheWrite : (d.iteration depth).cacheWrite = .ok () := hwrite
    cases hdownload : downloadConfiguration (d.iteration depth).response with
    | error e => simpa using ⟨h.file, h.rules⟩
    | ok configuration =>
      obtain ⟨hresponse, htruthy⟩ := downloadConfiguration_eq_ok hdownload
      have hfits := Download.fits hresponse
      obtain ⟨bytes, text, hdumps, hencode⟩ := exists_written (C := C) hfits
      have hread := readConfigCache_written hfits.wellFormed ⟨text, hdumps, hencode⟩
      have hcurrent : configuration = configuration.orElse (.obj []) := by
        rw [Json.orElse, htruthy, if_pos rfl]
      simp only [hcacheWrite, writeConfigCache, hdumps, hencode]
      cases hrules : configuration.get "alarm_rules" >>= rulesToHold with
      | error e =>
        -- the old rules stay, and nothing is promised of rules that cannot be held
        refine ⟨⟨configuration, hread, hcurrent⟩, fun rules h' => ?_⟩
        cases hrules.symm.trans h'
      | ok rules =>
        refine ⟨⟨configuration, hread, hcurrent⟩, fun rules' h' => ?_⟩
        exact Except.ok.inj (hrules.symm.trans h')
  · exact h

theorem foldl_restartable {s : Gateway} {file : SharedFile} (h : Restartable C depth s file)
    {downloads : List Download} (hwrites : ∀ d ∈ downloads, d.cacheWrite = .ok ()) :
    Restartable C depth (downloads.foldl (iterateOnDisk C depth) (s, file)).1
      (downloads.foldl (iterateOnDisk C depth) (s, file)).2 := by
  induction downloads generalizing s file with
  | nil => exact h
  | cons d downloads ih =>
    obtain ⟨hwrite, hrest⟩ := List.forall_mem_cons.mp hwrites
    exact ih (iterateOnDisk_restartable h hwrite) hrest

/-- A gateway that is stopped after any run of the refresh loop and started again from the file it
left has the configuration and the rules that it had, as long as the file could be written. -/
theorem restart_recovers (C : Codec) (depth : ℕ) {file : SharedFile} {configuration : Json}
    {s : Gateway} (hread : readConfigCache C.decode depth file = .ok configuration)
    (hs : startup (some configuration) = .ok s) {downloads : List Download}
    (hwrites : ∀ d ∈ downloads, d.cacheWrite = .ok ()) :
    ∃ left, readConfigCache C.decode depth (downloads.foldl (iterateOnDisk C depth) (s, file)).2 =
        .ok left ∧
      ((∃ restarted, startup (some left) = .ok restarted) ↔
        ∃ rules, ((downloads.foldl (iterateOnDisk C depth) (s, file)).1.currentConfiguration.get
          "alarm_rules" >>= rulesToHold) = .ok rules) ∧
      ∀ restarted, startup (some left) = .ok restarted →
        restarted.currentConfiguration =
            (downloads.foldl (iterateOnDisk C depth) (s, file)).1.currentConfiguration ∧
          restarted.evaluator.alarmRules =
            (downloads.foldl (iterateOnDisk C depth) (s, file)).1.evaluator.alarmRules := by
  obtain ⟨⟨left, hleft, hcurrent⟩, hrules⟩ := foldl_restartable (startup_restartable hread hs) hwrites
  refine ⟨left, hleft, ⟨?_, ?_⟩, fun restarted hstart => ?_⟩
  · rintro ⟨restarted, hstart⟩
    obtain ⟨rules, hheld, -⟩ := startup_ok hstart
    rw [hcurrent]
    exact ⟨rules, hheld⟩
  · rintro ⟨rules, hheld⟩
    rw [hcurrent] at hheld
    obtain ⟨alarmRules, hget, hrules⟩ := bind_eq_ok.mp hheld
    exact ⟨_, bind_eq_ok.mpr ⟨alarmRules, hget, bind_eq_ok.mpr ⟨rules, hrules, rfl⟩⟩⟩
  · obtain ⟨rules, hheld, hconfiguration, hrestored⟩ := startup_ok hstart
    refine ⟨hconfiguration.trans hcurrent.symm, hrestored.trans (hrules rules ?_).symm⟩
    rw [hcurrent]
    exact hheld

/-- The gateway as `main` starts it where `read_config_cache` returns `None`. -/
def uncachedGateway : Gateway :=
  ⟨.obj [], Alarms.setCurrentAlarmRules (some []) .initial, some .null, .finite 0⟩

def sampleDownload : Download := ⟨.finite 60, .ok "\x7b\"success\":true\x7d", .ok ()⟩

theorem restart_recovers_sample :
    ∃ left, readConfigCache decodeAscii 2
        ([sampleDownload].foldl (iterateOnDisk asciiCodec 2) (uncachedGateway, .missing)).2 = .ok left ∧
      ∀ restarted, startup (some left) = .ok restarted → restarted.currentConfiguration =
        ([sampleDownload].foldl (iterateOnDisk asciiCodec 2)
          (uncachedGateway, .missing)).1.currentConfiguration := by
  have hmissing : readConfigCache asciiCodec.decode 2 .missing = .ok .null := rfl
  have hstart : startup (some .null) = .ok uncachedGateway := rfl
  have hwrites : ∀ d ∈ [sampleDownload], d.cacheWrite = .ok () := List.forall_mem_singleton.mpr rfl
  obtain ⟨left, hleft, -, hrestored⟩ := restart_recovers asciiCodec 2 hmissing hstart hwrites
  exact ⟨left, hleft, fun restarted h => (hrestored restarted h).1⟩

end restarting

end SenseGateway.Files
