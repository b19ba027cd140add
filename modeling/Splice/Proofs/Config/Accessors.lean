import Splice.Proofs.Config.History
import Splice.Proofs.Config.Language
import Splice.Proofs.Config.Priority
import Splice.Proofs.Double.Whole
import Splice.Proofs.Text.Uppering
import Splice.Proofs.World.Home

namespace Splice.Config

open Outcome Results Value World

variable {w : World} {root : Path} {m : Mapping} {name : String} {v : Value} {e : Fault}

/-! ### What a configuration has at the four paths -/

theorem Admits.field {P : Value → Prop} (h : Admits m name P) (hnull : P .null) :
    P (m.field name) := by
  rw [Mapping.field]
  cases hv : m.get? (.text name) with
  | none => exact hnull
  | some v => exact h v hv

theorem Admits.section? {P : Mapping → Prop} (h : Admits m name fun v => ∃ n, v = .map n ∧ P n)
    (hempty : P []) : ∃ n, section? m name = .ok n ∧ P n := by
  rw [Config.section?, Mapping.field]
  cases hv : m.get? (.text name) with
  | none => exact ⟨[], rfl, hempty⟩
  | some v =>
      obtain ⟨n, rfl, hn⟩ := h v hv
      cases n with
      | nil => exact ⟨[], rfl, hn⟩
      | cons e n => exact ⟨e :: n, rfl, hn⟩

theorem Admits.nil {P : Value → Prop} : Admits [] name P := by
  rintro v ⟨⟩

theorem found_fetch (h : IsConfiguration (.map m)) :
    ∃ limit agent, found m ["includes", "fetch", "timeoutSeconds"] = .ok limit ∧
      found m ["includes", "fetch", "userAgent"] = .ok agent ∧
        IsTimeout limit ∧ IsOptionalText agent := by
  obtain ⟨hincludes, -⟩ := h
  obtain ⟨n, hn, hfetch⟩ : ∃ n, section? m "includes" = .ok n ∧ Admits n "fetch" IsFetch := by
    refine Admits.section? (fun v hv => ?_) .nil
    obtain ⟨-, hfetch⟩ := hincludes v hv
    exact ⟨_, rfl, hfetch⟩
  obtain ⟨k, hk, htimeout, hagent⟩ : ∃ k, section? n "fetch" = .ok k ∧
      Admits k "timeoutSeconds" IsTimeout ∧ Admits k "userAgent" IsOptionalText := by
    refine Admits.section? (fun v hv => ?_) ⟨.nil, .nil⟩
    obtain ⟨-, htimeout, hagent⟩ := hfetch v hv
    exact ⟨_, rfl, htimeout, hagent⟩
  refine ⟨_, _, ?_, ?_, htimeout.field .none, hagent.field .none⟩
  · simp only [found, hn, hk, bind, Except.bind]
  · simp only [found, hn, hk, bind, Except.bind]

theorem found_logging (h : IsConfiguration (.map m)) :
    ∃ level file, found m ["logging", "level"] = .ok level ∧
      found m ["logging", "file"] = .ok file ∧ IsOptionalText level ∧ IsOptionalText file := by
  obtain ⟨-, hlogging⟩ := h
  obtain ⟨n, hn, hlevel, hfile⟩ : ∃ n, section? m "logging" = .ok n ∧
      Admits n "level" IsOptionalText ∧ Admits n "file" IsOptionalText := by
    refine Admits.section? (fun v hv => ?_) ⟨.nil, .nil⟩
    obtain ⟨-, hlevel, hfile⟩ := hlogging v hv
    refine ⟨_, rfl, fun u hu => ?_, hfile⟩
    obtain ⟨s⟩ := hlevel u hu
    exact .text s
  refine ⟨_, _, ?_, ?_, hlevel.field .none, hfile.field .none⟩
  · simp only [found, hn, bind, Except.bind]
  · simp only [found, hn, bind, Except.bind]

/-! ### The accessors -/

/-- Seconds to wait for a document; without them there is no limit. -/
def timeoutSeconds (m : Mapping) : Except Fault (Option Double) := do
  match ← found m ["includes", "fetch", "timeoutSeconds"] with
  | .null => return none
  | v => some <$> toDouble v

def userAgent (m : Mapping) : Except Fault String := do
  let agent ← found m ["includes", "fetch", "userAgent"]
  return if agent.isEmpty then defaultAgent else agent.plain

theorem fetching_eq_accessors (m : Mapping) :
    fetching m = do return ⟨← timeoutSeconds m, ← userAgent m⟩ := by
  rw [fetching_eq, timeoutSeconds, userAgent]
  cases found m ["includes", "fetch", "timeoutSeconds"] with
  | error e => rfl
  | ok limit => cases found m ["includes", "fetch", "userAgent"] <;> cases limit <;> rfl

/-- A limit that the schema lets through, but that is no positive number of double precision. -/
inductive Unfit : Value → Prop
  | nan : Unfit (.float .nan)
  | vast {i : Int} (large : (Double.leastOverflow : Int) ≤ i) : Unfit (.int i)

theorem toDouble_of_fit (h : IsTimeout v) (hfit : ¬Unfit v) (hv : v ≠ .null) :
    ∃ d, toDouble v = .ok d ∧ d.isPositive = true := by
  cases h with
  | none => exact absurd rfl hv
  | whole above =>
      have hread := Double.ofInt?_of_pos above
      rw [if_neg (mt Unfit.vast hfit)] at hread
      obtain ⟨d, hd, hpositive⟩ := hread
      refine ⟨d, ?_, hpositive⟩
      simp only [toDouble, hd]
  | double above =>
      rcases above with rfl | hpositive
      · exact absurd .nan hfit
      · exact ⟨_, rfl, hpositive⟩

theorem toDouble_of_vast {i : Int} (h : IsTimeout (.int i))
    (large : (Double.leastOverflow : Int) ≤ i) : toDouble (.int i) = .error .notFinite := by
  cases h with
  | whole above =>
      have hread := Double.ofInt?_of_pos above
      rw [if_pos large] at hread
      simp only [toDouble, hread]

theorem logFile_of_found {given : Option Path} (hfile : found m ["logging", "file"] = .ok v)
    (htext : IsOptionalText v) :
    logFile w given m = .error e ↔ e = .noHome ∧ ∃ s, v = .text s ∧ Homeless w (.ofText s) := by
  rw [logFile_eq, hfile]
  cases htext with
  | none =>
      constructor
      · rintro ⟨⟩
      · rintro ⟨-, s, ⟨⟩, -⟩
  | text s =>
      have hplain : (∃ s', Value.text s = .text s' ∧ Homeless w (.ofText s')) ↔
          Homeless w (.ofText s) := by simp
      rw [hplain]
      by_cases hempty : s = ""
      · subst hempty
        constructor
        · rintro ⟨⟩
        · rintro ⟨-, name, rest, user, hp, -⟩
          cases hp
      · have hnot : (Value.text s).isEmpty = false := by simpa [isEmpty] using hempty
        rw [← expandHome_error_iff]
        simp only [bind, Except.bind, hnot, plain]
        cases w.expandHome (.ofText s) with
        | ok p =>
            constructor
            · rintro ⟨⟩
            · rintro ⟨⟩
        | error d => simp

theorem ne_empty_of_not_isEmpty (h : IsOptionalText v) (hv : v.isEmpty = false) : v.plain ≠ "" := by
  cases h with
  | none => cases hv
  | text s => simpa [isEmpty, plain] using hv

theorem userAgent_of_found (h : found m ["includes", "fetch", "userAgent"] = .ok v)
    (hv : IsOptionalText v) : ∃ agent, userAgent m = .ok agent ∧ agent ≠ "" := by
  refine ⟨_, by rw [userAgent, h]; rfl, ?_⟩
  split
  · simp [defaultAgent]
  · rename_i hnot
    exact ne_empty_of_not_isEmpty hv (Bool.eq_false_of_not_eq_true hnot)

theorem logLevel_of_found (h : found m ["logging", "level"] = .ok v) (hv : IsOptionalText v) :
    ∃ level, logLevel m = .ok level ∧ level ≠ "" := by
  refine ⟨_, by rw [logLevel_eq, h]; rfl, Text.uppered_ne_empty ?_⟩
  split
  · decide
  · rename_i hnot
    exact ne_empty_of_not_isEmpty hv (Bool.eq_false_of_not_eq_true hnot)

theorem timeoutSeconds_eq (h : found m ["includes", "fetch", "timeoutSeconds"] = .ok v)
    (hv : v ≠ .null) : timeoutSeconds m = some <$> toDouble v := by
  rw [timeoutSeconds, h]
  cases v with
  | null => exact absurd rfl hv
  | _ => rfl

theorem timeoutSeconds_of_fit (h : found m ["includes", "fetch", "timeoutSeconds"] = .ok v)
    (hv : IsTimeout v) (hfit : ¬Unfit v) :
    ∃ timeout, timeoutSeconds m = .ok timeout ∧ ∀ d ∈ timeout, d.isPositive = true := by
  by_cases hnull : v = .null
  · subst hnull
    exact ⟨none, by rw [timeoutSeconds, h]; rfl, by simp⟩
  · obtain ⟨d, hd, hpositive⟩ := toDouble_of_fit hv hfit hnull
    refine ⟨some d, by rw [timeoutSeconds_eq h hnull, hd]; rfl, ?_⟩
    rintro _ ⟨⟩
    exact hpositive

/-- What the accessors return where a configuration has the limit and the file. -/
structure Accessors (w : World) (m : Mapping) (limit file : Value) : Prop where
  timeout : ¬Unfit limit → ∃ t, timeoutSeconds m = .ok t ∧ ∀ d ∈ t, d.isPositive = true
  nan : limit = .float .nan → timeoutSeconds m = .ok (some .nan)
  vast : ∀ i : Int, limit = .int i → Double.leastOverflow ≤ i →
    timeoutSeconds m = .error .notFinite
  agent : ∃ a, userAgent m = .ok a ∧ a ≠ ""
  level : ∃ l, logLevel m = .ok l ∧ l ≠ ""
  path : ∀ given, (∀ s, file = .text s → ¬Homeless w (.ofText s)) → ∃ p, logFile w given m = .ok p
  homeless : ∀ given e, logFile w given m = .error e ↔
    e = .noHome ∧ ∃ s, file = .text s ∧ Homeless w (.ofText s)

theorem accessors_of_configuration (h : IsConfiguration (.map m)) (w : World) :
    ∃ limit file, found m ["includes", "fetch", "timeoutSeconds"] = .ok limit ∧
      found m ["logging", "file"] = .ok file ∧ Accessors w m limit file := by
  obtain ⟨limit, agent, hlimit, hagent, htimely, hnamed⟩ := found_fetch h
  obtain ⟨level, file, hlevel, hfile, hlevelled, hfiled⟩ := found_logging h
  refine ⟨limit, file, hlimit, hfile, ?_⟩
  constructor
  case timeout => exact timeoutSeconds_of_fit hlimit htimely
  case nan =>
    rintro rfl
    rw [timeoutSeconds_eq hlimit nofun]
    rfl
  case vast =>
    rintro i rfl hlarge
    rw [timeoutSeconds_eq hlimit nofun, toDouble_of_vast htimely hlarge]
    rfl
  case agent => exact userAgent_of_found hagent hnamed
  case level => exact logLevel_of_found hlevel hlevelled
  case path =>
    intro given hhome
    cases hresult : logFile w given m with
    | ok p => exact ⟨p, rfl⟩
    | error e =>
        obtain ⟨-, s, hs, hhomeless⟩ := (logFile_of_found hfile hfiled).mp hresult
        exact absurd hhomeless (hhome s hs)
  case homeless => exact fun given e => logFile_of_found hfile hfiled

theorem result_fetching_of_absent {s : Session} {given : Option Path} {key : Fingerprint}
    (hkey : Session.fingerprint s.world given = .ok key) (habsent : s.find? key = none)
    (hload : (load s.world key.root true).result = .ok m) :
    (s.fetching given).2.result = do return ⟨← timeoutSeconds m, ← userAgent m⟩ := by
  have hloads : Session.Loads s given true ⟨key, s.next, m⟩ := ⟨hkey, habsent, rfl, hload⟩
  rw [← fetching_eq_accessors, Session.fetching, Session.get_of_loads hloads]
  rfl

/-! ### Projects with one setting -/

def project (text : List Char) : World := oneFile (String.ofList text) []

theorem loads_project {text : List Char} {n : Mapping}
    (hn : (Yaml.read (Text.unifyLineEnds text)).toOption = some (.map n))
    (hm : (bundledLayers ++ [n]).foldl Mapping.merge [] = m) (hvalid : IsConfiguration (.map m)) :
    Session.Loads (.ofWorld (project text)) (some ⟨.root, []⟩) true
      ⟨⟨⟨.root, []⟩, []⟩, 0, m⟩ := by
  subst hm
  refine Session.loads_oneFile rfl rfl (Text.Utf8.decode_encode _) ?_ fun _ =>
    Schema.check_ok_iff.mpr (configuration_iff.mpr hvalid)
  rw [String.toList_ofList]
  exact toOption_eq_some_iff.mp hn

/-- The defaults, with a limit and a file. -/
def settled (limit file : Value) : Mapping :=
  [(.text "includes", .map [(.text "fetch",
     .map [(.text "timeoutSeconds", limit), (.text "userAgent", .null)])]),
   (.text "logging", .map [(.text "level", .text "WARNING"), (.text "file", file)])]

theorem isConfiguration_settled {limit file : Value} (hlimit : IsTimeout limit)
    (hfile : IsOptionalText file) : IsConfiguration (.map (settled limit file)) := by
  refine .mapping ?_ ?_
  · rintro _ ⟨⟩
    refine .mapping (by simp [HasOnly]) ?_
    rintro _ ⟨⟩
    refine .mapping (by simp [HasOnly]) ?_ ?_
    · rintro _ ⟨⟩
      exact hlimit
    · rintro _ ⟨⟩
      exact .none
  · rintro _ ⟨⟩
    refine .mapping (by simp [HasOnly]) ?_ ?_
    · rintro _ ⟨⟩
      exact .text _
    · rintro _ ⟨⟩
      exact hfile

theorem settled_of_vast {n : Nat} (large : Double.leastOverflow ≤ n) :
    IsTimeout (.int n) ∧ timeoutSeconds (settled (.int n) .null) = .error .notFinite := by
  have hleast := Double.le_leastOverflow
  have hpositive : IsTimeout (.int n) := .whole (by omega)
  have hread : timeoutSeconds (settled (.int n) .null) = some <$> toDouble (.int n) :=
    timeoutSeconds_eq rfl nofun
  rw [toDouble_of_vast hpositive (Int.ofNat_le.mpr large)] at hread
  exact ⟨hpositive, hread⟩

/-- A file with a limit. -/
def limited (limit : List Char) : List Char :=
  "includes:\n  fetch:\n    timeoutSeconds: ".toList ++ limit ++ ['\n']

def limitedTo (v : Value) : Mapping :=
  [(.text "includes", .map [(.text "fetch", .map [(.text "timeoutSeconds", v)])])]

theorem loads_limited {limit : List Char}
    (hread : (Yaml.read (Text.unifyLineEnds (limited limit))).toOption = some (.map (limitedTo v)))
    (hv : IsTimeout v) : Session.Loads (.ofWorld (project (limited limit))) (some ⟨.root, []⟩) true
      ⟨⟨⟨.root, []⟩, []⟩, 0, settled v .null⟩ := by
  refine loads_project hread ?_ (isConfiguration_settled hv .none)
  cases hv <;> rfl

/-- A one with more zeros than any finite number of double precision has. -/
def vast : List Char := '1' :: List.replicate 309 '0'

def abroad : List Char := "logging:\n  file: ~unknown/log\n".toList

theorem read_projects :
    (Yaml.read (Text.unifyLineEnds (limited "30".toList))).toOption =
        some (.map (limitedTo (.int 30))) ∧
      (Yaml.read (Text.unifyLineEnds (limited ".nan".toList))).toOption =
        some (.map (limitedTo (.float .nan))) ∧
      (Yaml.read (Text.unifyLineEnds (limited vast))).toOption =
        some (.map (limitedTo (.int (Nat.pow 10 309)))) ∧
      (Yaml.read (Text.unifyLineEnds abroad)).toOption =
        some (.map [(.text "logging", .map [(.text "file", .text "~unknown/log")])]) := by
  decide +kernel

/-- The accessors on a configuration that has been loaded and validated. Agent and level are always
there and never empty. The limit is none or positive, unless it is not a number or too large for a
number of double precision; the file is none or a path, unless it starts in a home directory that is
not known. A fetcher made of the configuration has this limit and this agent. -/
theorem load_accessors (hload : (load w root true).result = .ok m) :
    ∃ limit file, found m ["includes", "fetch", "timeoutSeconds"] = .ok limit ∧
      found m ["logging", "file"] = .ok file ∧ Accessors w m limit file ∧
      ∀ (s : Session) given key, s.world = w → Session.fingerprint w given = .ok key →
        key.root = root → s.find? key = none →
          (s.fetching given).2.result = (do return ⟨← timeoutSeconds m, ← userAgent m⟩) ∧
          (¬Unfit limit → ∃ f, (s.fetching given).2.result = .ok f ∧
            (∀ d ∈ f.timeout, d.isPositive = true) ∧ f.agent ≠ "") := by
  obtain ⟨-, -, -, -, hcheck⟩ := result_load_ok_iff.mp hload
  have hvalid : IsConfiguration (.map m) :=
    configuration_iff.mp (Schema.check_ok_iff.mp (hcheck rfl))
  obtain ⟨limit, file, hlimit, hfile, haccessors⟩ := accessors_of_configuration hvalid w
  refine ⟨limit, file, hlimit, hfile, haccessors, ?_⟩
  rintro s given key rfl hkey rfl habsent
  have hfetching := result_fetching_of_absent hkey habsent hload
  refine ⟨hfetching, fun hfit => ?_⟩
  obtain ⟨timeout, htimeout, hpositive⟩ := haccessors.timeout hfit
  obtain ⟨agent, hagent, hne⟩ := haccessors.agent
  rw [hfetching, htimeout, hagent]
  exact ⟨_, rfl, hpositive, hne⟩

/-- A project that waits for half a minute. -/
theorem load_accessors_halfMinute :
    (load (project (limited "30".toList)) ⟨.root, []⟩ true).result =
        .ok (settled (.int 30) .null) ∧
      ∃ f, ((Session.ofWorld (project (limited "30".toList))).fetching
          (some ⟨.root, []⟩)).2.result = .ok f ∧
        (∀ d ∈ f.timeout, d.isPositive = true) ∧ f.agent ≠ "" := by
  have hloads := loads_limited read_projects.1 (.whole (by decide))
  obtain ⟨limit, file, hlimit, -, -, hfetching⟩ := load_accessors hloads.config
  obtain rfl : Value.int 30 = limit := Except.ok.inj hlimit
  refine ⟨hloads.config, (hfetching _ _ _ rfl hloads.key rfl hloads.absent).2 ?_⟩
  rintro (_ | ⟨large⟩)
  have hleast := Double.le_leastOverflow
  omega

/-- The schema lets through a limit that is too large, one that is not a number, and a file in the
home directory of someone unknown. -/
theorem accessors_unfit :
    (∃ m, (load (project (limited vast)) ⟨.root, []⟩ true).result = .ok m ∧
      timeoutSeconds m = .error .notFinite ∧
      ((Session.ofWorld (project (limited vast))).fetching (some ⟨.root, []⟩)).2.result =
        .error .notFinite) ∧
    (∃ m, (load (project (limited ".nan".toList)) ⟨.root, []⟩ true).result = .ok m ∧
      timeoutSeconds m = .ok (some .nan) ∧ Double.nan.isPositive = false) ∧
    ∃ m, (load (project abroad) ⟨.root, []⟩ true).result = .ok m ∧
      logFile (project abroad) (some ⟨.root, []⟩) m = .error .noHome := by
  obtain ⟨-, hnan, hvast, habroad⟩ := read_projects
  refine ⟨?_, ?_, ?_⟩
  · obtain ⟨hpositive, htimeout⟩ := settled_of_vast Double.leastOverflow_le
    have hloads := loads_limited hvast hpositive
    refine ⟨_, hloads.config, htimeout, ?_⟩
    rw [result_fetching_of_absent hloads.key hloads.absent hloads.config, htimeout]
    rfl
  · have hloads := loads_limited hnan (.double (.inl rfl))
    exact ⟨_, hloads.config, rfl, rfl⟩
  · have hloads := loads_project habroad (m := settled .null (.text "~unknown/log")) rfl
      (isConfiguration_settled .none (.text _))
    have hhomeless : Homeless (project abroad) (.ofText "~unknown/log") :=
      ⟨"~unknown", ["log"], "unknown".toList, by decide +kernel, rfl, by rintro _ ⟨⟩⟩
    exact ⟨_, hloads.config, (logFile_of_found rfl (.text _)).mpr ⟨rfl, _, rfl, hhomeless⟩⟩

end Splice.Config
