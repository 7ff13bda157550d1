import MiniosvCtrl.LinuxS3.Instance
import MiniosvCtrl.Properties.Config
import MiniosvCtrl.Properties.NoTrap

/-!
# The driver's knobs in the client

From a point of linux-s3's sweep, through the text of the guest's program and the environment that
the guest starts its client in, to what `load_config` makes of it.

* `env_of_mem`, `env_of_not_mem` — the client's environment
* `Asked` — the client's configuration is the driver's point
* `Proper` — the points for which it can be
* `knobs_reach` — it is for just these, on the cores that the guest confines it to
-/

namespace LinuxS3

open Infra Infra.Literal Prelude

variable {B : Builtins} {e : Environ} {k : Cfg} {ip runId address bucket region : String}
  {conf : List (String × String)} {prelude body program : List Char} {g : Guest} {env : Environ}
  {debug : String → String} {n : Nat} {t key value : String}

/-! ## Numbers -/

theorem toList_of_str (h : str n = some t) : n < 10 ^ Builtins.maxDigits ∧
    t.toList = Nat.toDigits 10 n := by
  unfold str at h
  split at h
  · rename_i hn
    cases h
    exact ⟨hn, String.toList_ofList⟩
  · cases h

/-- What the client reads of a number that the driver wrote. -/
theorem parseSize_str (h : str n = some t) (d : UInt64) :
    parseSize (some t) d = if n < 2 ^ 64 then UInt64.ofNat n else d := by
  have hlist := (toList_of_str h).2
  have hdigits : t.toList.takeWhile Char.isDigit = t.toList := by
    have hall : ∀ c ∈ t.toList, c.isDigit = true := fun c hc =>
      Builtins.isDigit_of_mem_toDigits (hlist ▸ hc)
    have h : (t.toList ++ []).takeWhile Char.isDigit = t.toList ++ [].takeWhile Char.isDigit :=
      List.takeWhile_append_of_pos hall
    rwa [List.append_nil, List.takeWhile_nil, List.append_nil] at h
  have hvalue : Nat.ofDigitChars 10 t.toList 0 = n := by
    rw [hlist, Nat.ofDigitChars_ten_toDigits]
  have hne : t.toList ≠ [] := by
    rw [hlist]
    exact Nat.toDigits_ne_nil
  simp only [parseSize, hdigits, parseU64, hvalue, hne, false_or, List.drop_length]
  by_cases hn : n < 2 ^ 64
  · rw [if_neg (Nat.not_le.mpr hn), if_pos hn]
    rfl
  · rw [if_pos (Nat.le_of_not_lt hn), if_neg hn]

/-! ## The environment of the client -/

/-- The name that the bucket has in its region. -/
def endpoint (bucket region : String) : String := s!"{bucket}.s3.{region}.amazonaws.com"

/-- No text of a configuration changes on its way, or keeps the client from being started. -/
def Carried (conf : List (String × String)) : Prop :=
  ∀ v ∈ conf, OneUnit v.2.toList ∧ '\x00' ∉ v.2.toList

instance (conf : List (String × String)) : Decidable (Carried conf) :=
  inferInstanceAs (Decidable (∀ v ∈ conf, _))

/-- The keys of a configuration, which are the driver's own words. -/
def keys : List String :=
  ["AWS_BUCKET", "AWS_REGION", "AWS_BUCKET_SIZE", "AWS_TARGET_IP", "BENCH_WORKERS",
    "BENCH_CONNS_PER_WORKER", "BENCH_BLOCK_SIZE", "BENCH_BLOCKS_PER_WORKER", "BENCH_TLS_STUB",
    "BENCH_SCHEME", "MODE", "RUN_ID"]

/-- A configuration, item by item. -/
theorem userConf_cases (h : userConf e k ip runId = some conf) :
    ∃ bucket region workers conns block blocks, e "AWS_BUCKET" = some bucket ∧
      e "AWS_REGION" = some region ∧ str k.workers = some workers ∧ str k.conns = some conns ∧
      str k.block = some block ∧ str k.blocks = some blocks ∧
      conf = keys.zip [bucket, region, (e "AWS_BUCKET_SIZE").getD "10G", ip, workers, conns, block,
        blocks, (e "BENCH_TLS_STUB").getD "0", (e "BENCH_SCHEME").getD "https", k.mode, runId] := by
  obtain ⟨bucket, hbucket, h⟩ := Option.bind_eq_some_iff.mp h
  obtain ⟨region, hregion, h⟩ := Option.bind_eq_some_iff.mp h
  obtain ⟨workers, hworkers, h⟩ := Option.bind_eq_some_iff.mp h
  obtain ⟨conns, hconns, h⟩ := Option.bind_eq_some_iff.mp h
  obtain ⟨block, hblock, h⟩ := Option.bind_eq_some_iff.mp h
  obtain ⟨blocks, hblocks, h⟩ := Option.bind_eq_some_iff.mp h
  exact ⟨bucket, region, workers, conns, block, blocks, hbucket, hregion, hworkers, hconns, hblock,
    hblocks, (Option.some.inj h).symm⟩

theorem keys_of_userConf (h : userConf e k ip runId = some conf) : conf.map Prod.fst = keys := by
  obtain ⟨bucket, region, workers, conns, block, blocks, -, -, -, -, -, -, rfl⟩ := userConf_cases h
  rfl

theorem nodup_keys : keys.Nodup := by decide

theorem plain_keys (h : key ∈ keys) :
    OneUnit key.toList ∧ '\x00' ∉ key.toList ∧ '='.toNat ∉ sent key := by
  have hall : keys.all (fun key => decide (OneUnit key.toList ∧ '\x00' ∉ key.toList ∧
      '='.toNat ∉ sent key)) = true := by decide
  exact of_decide_eq_true (List.all_eq_true.mp hall key h)

section

variable (hconf : userConf e k ip runId = some conf)
include hconf

theorem nodup_conf : (conf.map Prod.fst).Nodup := by
  rw [keys_of_userConf hconf]
  exact nodup_keys

theorem mem_keys (h : (key, value) ∈ conf) : key ∈ keys := by
  rw [← keys_of_userConf hconf]
  exact List.mem_map_of_mem h

theorem oneUnit_conf : ∀ v ∈ conf, OneUnit v.1.toList := fun _ hv =>
  (plain_keys (mem_keys hconf hv)).1

theorem merged_of_mem (h : (key, value) ∈ conf) :
    merged (arrived conf) g.environ key = some (sent value) := by
  simp only [merged, get_of_mem (nodup_conf hconf) (oneUnit_conf hconf) h]

theorem merged_of_not_mem (h : key ∉ keys) :
    merged (arrived conf) g.environ key = (g.environ key).map text := by
  have hkey : key ∉ conf.map Prod.fst := by rwa [keys_of_userConf hconf]
  simp only [merged, get_of_not_mem (oneUnit_conf hconf) hkey]

theorem cfg_of_mem (h : (key, value) ∈ conf) (default : String) :
    cfg (arrived conf) g.environ key default = sent value := by
  simp only [cfg, get_of_mem (nodup_conf hconf) (oneUnit_conf hconf) h]

theorem encodes_arrived (hcarried : Carried conf) : (arrived conf).Encodes := by
  intro v hv
  obtain ⟨⟨key, value⟩, hmem, rfl⟩ := List.mem_map.mp hv
  obtain ⟨hunits, hzero, heq⟩ := plain_keys (mem_keys hconf hmem)
  refine ⟨?_, heq, ?_⟩
  · rw [encode_sent, if_pos ⟨hunits, hzero⟩]
    rfl
  · rw [encode_sent, if_pos (hcarried _ hmem)]
    rfl

end

theorem encode_text (hzero : '\x00' ∉ t.toList) : encode (text t) = some t := by
  have hnot : 0 ∉ text t := by
    intro h
    obtain ⟨c, hc, heq⟩ := List.mem_map.mp h
    have hnul : c = '\x00' := Char.toNat_inj.mp heq
    exact hzero (hnul ▸ hc)
  rw [encode, if_neg hnot, text, Literal.chars_map, Option.map_some, String.ofList_toList]

theorem text_eq_nil : text t = [] ↔ t = "" := by
  rw [text, List.map_eq_nil_iff, String.toList_eq_nil_iff]

theorem text_append (s t : String) : text (s ++ t) = text s ++ text t := by
  rw [text, String.toList_append, List.map_append]
  rfl

/-- The environment of a client that was started. -/
structure Started (g : Guest) (conf : List (String × String)) (address : String)
    (env : Environ) : Prop where
  target : env "AWS_TARGET_IP" = some address
  given : ∀ {key value}, (key, value) ∈ conf → key ≠ "AWS_TARGET_IP" → env key = some value
  own : ∀ {key}, key ∉ keys → key ≠ "BENCH_IFACE" → g.environ key = none → env key = none

/-- **The guest starts its client with what the driver gave it.** -/
theorem exists_started (hconf : userConf e k ip runId = some conf) (hcarried : Carried conf)
    (hbucket : e "AWS_BUCKET" = some bucket) (hregion : e "AWS_REGION" = some region)
    (haddress : (if ip = "" then g.resolve (text (endpoint bucket region)) else some ip) =
      some address)
    (hzero : '\x00' ∉ address.toList) (hiface : '\x00' ∉ g.iface.toList) :
    ∃ env, g.env (arrived conf) = some env ∧ Started g conf address env := by
  obtain ⟨bucket', region', _, _, _, _, hbucket', hregion', -, -, -, -, hitems⟩ :=
    userConf_cases hconf
  obtain rfl : bucket = bucket' := Option.some.inj (hbucket.symm.trans hbucket')
  obtain rfl : region = region' := Option.some.inj (hregion.symm.trans hregion')
  have hmem_ip : ("AWS_TARGET_IP", ip) ∈ conf := by simp [hitems, keys]
  have hmem_bucket : ("AWS_BUCKET", bucket) ∈ conf := by simp [hitems, keys]
  have hmem_region : ("AWS_REGION", region) ∈ conf := by simp [hitems, keys]
  have hsent : ∀ {key value}, (key, value) ∈ conf → sent value = text value := fun h =>
    sent_eq_iff.mpr (hcarried _ h).1
  have htarget : g.targetIp (arrived conf) = some (text address) := by
    rw [Guest.targetIp, merged_of_mem hconf hmem_ip, Option.getD_some, hsent hmem_ip]
    by_cases hip : ip = ""
    · have hname : g.name (arrived conf) = text (endpoint bucket region) := by
        rw [Guest.name, Guest.bucket, Guest.region, cfg_of_mem hconf hmem_bucket,
          cfg_of_mem hconf hmem_region, hsent hmem_bucket, hsent hmem_region]
        simp only [endpoint, text_append]
        rfl
      rw [if_pos hip] at haddress
      rw [if_pos (text_eq_nil.mpr hip), hname, haddress]
      rfl
    · rw [if_neg hip] at haddress
      rw [if_neg (mt text_eq_nil.mp hip), Option.some.inj haddress]
  have hencodes : (arrived conf).Encodes ∧ (encode (text address)).isSome ∧
      (encode (text g.iface)).isSome := by
    rw [encode_text hzero, encode_text hiface]
    exact ⟨encodes_arrived hconf hcarried, rfl, rfl⟩
  refine ⟨g.clientEnv (arrived conf) (text address), ?_, ?_⟩
  · rw [Guest.env, htarget]
    exact if_pos hencodes
  · constructor
    · exact (if_pos rfl).trans (encode_text hzero)
    · intro key value hmem hkey
      have hiface : key ≠ "BENCH_IFACE" := by
        rintro rfl
        exact absurd (mem_keys hconf hmem) (by decide)
      simp only [Guest.clientEnv, if_neg hkey, if_neg hiface, merged_of_mem hconf hmem,
        Option.bind_some, encode_sent, if_pos (hcarried _ hmem)]
    · intro key hnot hiface hnone
      have hkey : key ≠ "AWS_TARGET_IP" := by
        rintro rfl
        exact hnot (by decide)
      simp only [Guest.clientEnv, if_neg hkey, if_neg hiface, merged_of_not_mem hconf hnot, hnone,
        Option.map_none, Option.bind_none]

/-! ## `load_config` -/

/-- All that `load_config` has put into what it accepts. -/
theorem load_fields {s : Settings} (h : Env.load env debug = .ok s) :
    Env.plain env debug = .ok s.config.plain ∧ Env.host env = .ok s.host ∧
      Env.targetIp env = .ok s.targetIp ∧ s.mode = Env.mode env ∧
      loadConfig (Env.workers env) (Env.conns env) (Env.blocks env) (Env.objectSize env)
        (Env.blockSize env) (Env.stub env) s.config.plain = .ok s.config := by
  obtain ⟨plain, hplain, h⟩ := ok_of_bind h
  obtain ⟨host, hhost, h⟩ := ok_of_bind h
  obtain ⟨targetIp, htarget, h⟩ := ok_of_bind h
  obtain ⟨config, hconfig, h⟩ := ok_of_bind h
  have hsame : config.plain = plain := by
    unfold loadConfig at hconfig
    split at hconfig
    · cases hconfig
    · cases hconfig
      rfl
  cases h
  subst hsame
  exact ⟨hplain, hhost, htarget, rfl, hconfig⟩

theorem exists_load (debug : String → String) {plain : Bool} {host : String} {targetIp : Ipv4Addr} {c : LinuxS3.Config}
    (hplain : Env.plain env debug = .ok plain) (hhost : Env.host env = .ok host)
    (htarget : Env.targetIp env = .ok targetIp)
    (hconfig : loadConfig (Env.workers env) (Env.conns env) (Env.blocks env) (Env.objectSize env)
      (Env.blockSize env) (Env.stub env) plain = .ok c) :
    ∃ s, Env.load env debug = .ok s ∧ s.config = c ∧ s.host = host ∧ s.targetIp = targetIp ∧
      s.mode = Env.mode env := by
  let s : Settings :=
    { config := c
      targetIp := targetIp
      host := host
      path := (Env.var env "BENCH_PATH").getD "/blob.bin"
      tuning := Env.tuning env
      mode := Env.mode env
      iface := Env.var env "BENCH_IFACE" }
  refine ⟨s, ?_, rfl, rfl, rfl, rfl⟩
  simp only [Env.load, hplain, hhost, htarget, bind, Except.bind, hconfig]
  rfl

/-! ## What the client reads -/

theorem filter_ne_empty (t : String) :
    (some t).filter (· ≠ "") = if t = "" then none else some t := by
  by_cases ht : t = "" <;> simp [ht]

theorem parseSize_filter (o : Option String) (d : UInt64) :
    parseSize (o.filter (· ≠ "")) d = parseSize o d := by
  cases o with
  | none => rfl
  | some t =>
    by_cases ht : t = ""
    · rw [ht]
      rfl
    · rw [Option.filter_some, if_pos (by simpa using ht)]

theorem parseBool_filter (o : Option String) (d : Bool) :
    parseBool (o.filter (· ≠ "")) d = parseBool o d := by
  cases o with
  | none => rfl
  | some t =>
    by_cases ht : t = ""
    · rw [ht]
      rfl
    · rw [Option.filter_some, if_pos (by simpa using ht)]

/-- A number that the driver wrote, or the client's default if it has too many bits. -/
theorem size_given {d : UInt64} (hs : Started g conf address env) (hstr : str n = some t)
    (hmem : (key, t) ∈ conf) (hkey : key ≠ "AWS_TARGET_IP") :
    parseSize (Env.var env key) d = if n < 2 ^ 64 then UInt64.ofNat n else d := by
  rw [Env.var, parseSize_filter, hs.given hmem hkey, parseSize_str hstr]

/-- A text, if it is not empty. -/
theorem var_given (hs : Started g conf address env) (hmem : (key, value) ∈ conf)
    (hkey : key ≠ "AWS_TARGET_IP") : Env.var env key = if value = "" then none else some value := by
  rw [Env.var, hs.given hmem hkey, filter_ne_empty]

theorem plain_given {scheme : String} (hs : Started g conf address env)
    (hmem : ("BENCH_SCHEME", scheme) ∈ conf) (plain : Bool) :
    Env.plain env debug = .ok plain ↔
      scheme ∈ ["", "http", "https"] ∧ plain = decide (scheme = "http") := by
  rw [Env.plain, var_given hs hmem (by decide)]
  by_cases hempty : scheme = ""
  · cases plain <;> simp [hempty]
  by_cases hhttp : scheme = "http"
  · cases plain <;> simp [hhttp]
  by_cases hhttps : scheme = "https"
  · cases plain <;> simp [hhttps]
  · simp [hempty, hhttp, hhttps]

/-- **The client has the name of the bucket, if there is one.** -/
theorem host_given {host : String} (hs : Started g conf address env)
    (hbucket : ("AWS_BUCKET", bucket) ∈ conf) (hregion : ("AWS_REGION", region) ∈ conf)
    (hown : g.environ "BENCH_HOST" = none) :
    Env.host env = .ok host ↔ bucket ≠ "" ∧ region ≠ "" ∧ host = endpoint bucket region := by
  have hnone : Env.var env "BENCH_HOST" = none := by
    rw [Env.var, hs.own (by decide) (by decide) hown]
    rfl
  rw [Env.host, hnone, var_given hs hbucket (by decide), var_given hs hregion (by decide)]
  by_cases hb : bucket = ""
  · simp [hb]
  by_cases hr : region = ""
  · simp [hb, hr]
  · simp [hb, hr, endpoint, eq_comm (a := host)]

theorem targetIp_given {targetIp : Ipv4Addr} (hs : Started g conf address env) :
    Env.targetIp env = .ok targetIp ↔ parseIpv4 address = some targetIp := by
  rw [Env.targetIp, Env.var, hs.target, filter_ne_empty]
  by_cases haddress : address = ""
  · have hnone : parseIpv4 "" = none := by decide
    simp [haddress, hnone]
  · rw [if_neg haddress]
    cases h : parseIpv4 address <;> simp [h]

theorem mode_given {mode : String} (hs : Started g conf address env)
    (hmem : ("MODE", mode) ∈ conf) : Env.mode env = if mode = "" then "stock" else mode := by
  rw [Env.mode, var_given hs hmem (by decide)]
  by_cases hmode : mode = "" <;> simp [hmode]

/-! ## The whole way -/

/-- The client's configuration is the driver's point. -/
structure Asked (e : Environ) (k : Cfg) (host address : String) (s : Settings) : Prop where
  workers : s.config.workers.toNat = k.workers
  conns : s.config.connsPerWorker.toNat = k.conns
  block : s.config.blockSize.toNat = k.block
  /-- 0 is one block for each connection. -/
  blocks : s.config.blocksPerWorker.toNat = if k.blocks = 0 then k.conns else k.blocks
  objectSize : s.config.objectSize =
    parseSize (some ((e "AWS_BUCKET_SIZE").getD "10G")) (10 * 1024 * 1024 * 1024)
  plain : s.config.plain = decide ((e "BENCH_SCHEME").getD "https" = "http")
  stub : s.config.stub =
    (parseBool (some ((e "BENCH_TLS_STUB").getD "0")) false && !s.config.plain)
  host : s.host = host
  targetIp : parseIpv4 address = some s.targetIp
  mode : s.mode = k.mode

/-- The points that the client can be configured for. -/
structure Proper (e : Environ) (k : Cfg) (bucket region address : String) : Prop where
  workers : 0 < k.workers ∧ k.workers < 2 ^ 64
  conns : 0 < k.conns ∧ k.conns < 2 ^ 64
  block : 0 < k.block ∧ k.block < 2 ^ 64
  blocks : k.blocks < 2 ^ 64
  objectSize : parseSize (some ((e "AWS_BUCKET_SIZE").getD "10G")) (10 * 1024 * 1024 * 1024) ≠ 0
  scheme : (e "BENCH_SCHEME").getD "https" ∈ ["", "http", "https"]
  bucket : bucket ≠ ""
  region : region ≠ ""
  address : (parseIpv4 address).isSome
  mode : k.mode ≠ ""

/-- What `load_config` makes of its numbers. -/
theorem config_of_loadConfig {workers conns blocks objectSize blockSize : UInt64}
    {stub plain : Bool} {c : LinuxS3.Config}
    (h : loadConfig workers conns blocks objectSize blockSize stub plain = .ok c) :
    c.workers = workers ∧ c.connsPerWorker = conns ∧
      c.blocksPerWorker = (if blocks = 0 then conns else blocks) ∧ c.objectSize = objectSize ∧
      c.blockSize = blockSize ∧ c.stub = (stub && !plain) := by
  unfold loadConfig at h
  split at h
  · cases h
  · cases h
    exact ⟨rfl, rfl, rfl, rfl, rfl, rfl⟩

theorem exists_loadConfig {workers conns objectSize blockSize : UInt64} (blocks : UInt64)
    (stub plain : Bool) (hworkers : workers ≠ 0) (hconns : conns ≠ 0) (hobject : objectSize ≠ 0)
    (hblock : blockSize ≠ 0) :
    ∃ c, loadConfig workers conns blocks objectSize blockSize stub plain = .ok c := by
  have hnot : ¬(objectSize = 0 ∨ blockSize = 0 ∨ conns = 0 ∨ workers = 0) := by
    rintro (h | h | h | h)
    · exact hobject h
    · exact hblock h
    · exact hconns h
    · exact hworkers h
  exact ⟨_, dif_neg hnot⟩

theorem toNat_pos {x : UInt64} (hx : x ≠ 0) : 0 < x.toNat :=
  Nat.pos_of_ne_zero fun h0 => hx (UInt64.toNat_inj.mp h0)

theorem ofNat_ne_zero (hpos : 0 < n) (hn : n < 2 ^ 64) : UInt64.ofNat n ≠ 0 := by
  intro h
  have hzero := congrArg UInt64.toNat h
  rw [UInt64.toNat_ofNat_of_lt' hn] at hzero
  exact absurd hzero hpos.ne'

/-- What a client that was started reads there. -/
structure Reads (e : Environ) (k : Cfg) (bucket region address : String) (env : Environ) :
    Prop where
  workers : Env.workers env = if k.workers < 2 ^ 64 then UInt64.ofNat k.workers else 8
  conns : Env.conns env = if k.conns < 2 ^ 64 then UInt64.ofNat k.conns else 24
  block : Env.blockSize env = if k.block < 2 ^ 64 then UInt64.ofNat k.block else 64 * 1024 * 1024
  blocks : Env.blocks env = if k.blocks < 2 ^ 64 then UInt64.ofNat k.blocks else 0
  objectSize : Env.objectSize env =
    parseSize (some ((e "AWS_BUCKET_SIZE").getD "10G")) (10 * 1024 * 1024 * 1024)
  stub : Env.stub env = parseBool (some ((e "BENCH_TLS_STUB").getD "0")) false
  plain : ∀ debug plain, Env.plain env debug = .ok plain ↔
    (e "BENCH_SCHEME").getD "https" ∈ ["", "http", "https"] ∧
      plain = decide ((e "BENCH_SCHEME").getD "https" = "http")
  host : ∀ host, Env.host env = .ok host ↔
    bucket ≠ "" ∧ region ≠ "" ∧ host = endpoint bucket region
  targetIp : ∀ ip, Env.targetIp env = .ok ip ↔ parseIpv4 address = some ip
  mode : Env.mode env = if k.mode = "" then "stock" else k.mode

theorem reads_of_started (hconf : userConf e k ip runId = some conf)
    (hs : Started g conf address env) (hbucket : e "AWS_BUCKET" = some bucket)
    (hregion : e "AWS_REGION" = some region) (hown : g.environ "BENCH_HOST" = none) :
    Reads e k bucket region address env := by
  obtain ⟨bucket', region', workers, conns, block, blocks, hbucket', hregion', hworkers, hconns,
    hblock, hblocks, hitems⟩ := userConf_cases hconf
  obtain rfl : bucket = bucket' := Option.some.inj (hbucket.symm.trans hbucket')
  obtain rfl : region = region' := Option.some.inj (hregion.symm.trans hregion')
  constructor
  · exact size_given hs hworkers (by simp [hitems, keys]) (by decide)
  · exact size_given hs hconns (by simp [hitems, keys]) (by decide)
  · exact size_given hs hblock (by simp [hitems, keys]) (by decide)
  · exact size_given hs hblocks (by simp [hitems, keys]) (by decide)
  · have hmem : ("AWS_BUCKET_SIZE", (e "AWS_BUCKET_SIZE").getD "10G") ∈ conf := by
      simp [hitems, keys]
    rw [Env.objectSize, Env.var, parseSize_filter, hs.given hmem (by decide)]
  · have hmem : ("BENCH_TLS_STUB", (e "BENCH_TLS_STUB").getD "0") ∈ conf := by
      simp [hitems, keys]
    rw [Env.stub, Env.var, parseBool_filter, hs.given hmem (by decide)]
  · exact fun _ plain => plain_given hs (by simp [hitems, keys]) plain
  · exact fun _ => host_given hs (by simp [hitems, keys]) (by simp [hitems, keys]) hown
  · exact fun _ => targetIp_given hs
  · exact mode_given hs (by simp [hitems, keys])

/-- **The client is configured for the driver's point exactly if that is a proper one.** -/
theorem asked_iff (h : Reads e k bucket region address env) :
    (∃ s, Env.load env debug = .ok s ∧ Asked e k (endpoint bucket region) address s) ↔
      Proper e k bucket region address := by
  constructor
  · rintro ⟨s, hload, hasked⟩
    obtain ⟨hplain, hhost, htarget, hmode, hconfig⟩ := load_fields hload
    obtain ⟨-, -, -, hobject, -, -⟩ := config_of_loadConfig hconfig
    have hw := hasked.workers ▸ s.config.workers.toNat_lt
    have hc := hasked.conns ▸ s.config.connsPerWorker.toNat_lt
    have hb := hasked.block ▸ s.config.blockSize.toNat_lt
    have hbs := hasked.blocks ▸ s.config.blocksPerWorker.toNat_lt
    obtain ⟨hbucket, hregion, -⟩ := (h.host _).mp hhost
    refine ⟨⟨hasked.workers ▸ toNat_pos s.config.workers_ne, hw⟩,
      ⟨hasked.conns ▸ toNat_pos s.config.connsPerWorker_ne, hc⟩,
      ⟨hasked.block ▸ toNat_pos s.config.blockSize_ne, hb⟩, ?_, ?_, ((h.plain _ _).mp hplain).1,
      hbucket, hregion, ?_, ?_⟩
    · split at hbs <;> omega
    · rw [← h.objectSize, ← hobject]
      exact s.config.objectSize_ne
    · rw [(h.targetIp _).mp htarget]
      rfl
    · intro hempty
      have hstock := hasked.mode.symm.trans hmode
      rw [h.mode, if_pos hempty, hempty] at hstock
      exact absurd hstock (by decide)
  · intro hp
    have hw : Env.workers env = UInt64.ofNat k.workers := h.workers.trans (if_pos hp.workers.2)
    have hc : Env.conns env = UInt64.ofNat k.conns := h.conns.trans (if_pos hp.conns.2)
    have hb : Env.blockSize env = UInt64.ofNat k.block := h.block.trans (if_pos hp.block.2)
    have hbs : Env.blocks env = UInt64.ofNat k.blocks := h.blocks.trans (if_pos hp.blocks)
    obtain ⟨ip, hip⟩ := Option.isSome_iff_exists.mp hp.address
    obtain ⟨c, hconfig⟩ := exists_loadConfig (Env.blocks env) (Env.stub env)
      (decide ((e "BENCH_SCHEME").getD "https" = "http"))
      (hw ▸ ofNat_ne_zero hp.workers.1 hp.workers.2) (hc ▸ ofNat_ne_zero hp.conns.1 hp.conns.2)
      (h.objectSize ▸ hp.objectSize) (hb ▸ ofNat_ne_zero hp.block.1 hp.block.2)
    obtain ⟨s, hload, rfl, hhost, rfl, hmode⟩ := exists_load debug
      ((h.plain _ _).mpr ⟨hp.scheme, rfl⟩) ((h.host _).mpr ⟨hp.bucket, hp.region, rfl⟩)
      ((h.targetIp _).mpr hip) hconfig
    obtain ⟨hw', hc', hbs', ho', hb', hst'⟩ := config_of_loadConfig hconfig
    obtain ⟨hplain, -⟩ := load_fields hload
    have hplain := ((h.plain _ _).mp hplain).2
    refine ⟨s, hload, ?_, ?_, ?_, ?_, ho'.trans h.objectSize, hplain, ?_, hhost, hip, ?_⟩
    · rw [hw', hw, UInt64.toNat_ofNat_of_lt' hp.workers.2]
    · rw [hc', hc, UInt64.toNat_ofNat_of_lt' hp.conns.2]
    · rw [hb', hb, UInt64.toNat_ofNat_of_lt' hp.block.2]
    · rw [hbs', hbs, hc]
      by_cases hzero : k.blocks = 0
      · rw [hzero, if_pos rfl]
        exact UInt64.toNat_ofNat_of_lt' hp.conns.2
      · rw [if_neg hzero, if_neg (ofNat_ne_zero (Nat.pos_of_ne_zero hzero) hp.blocks),
          UInt64.toNat_ofNat_of_lt' hp.blocks]
    · rw [hst', h.stub, hplain]
    · rw [hmode, h.mode, if_neg hp.mode]

/-- The guest and its client have the same modes in mind. -/
theorem mem_modes (mode : String) : mode ∈ ["capped", "parity", "nogro", "nogro1500"] ↔
    mode ∈ ["capped", "nogro", "nogro1500", "parity"] := by
  simp only [List.mem_cons, List.not_mem_nil, or_false]
  tauto

/-- **A client is confined to just the cores that its workers are pinned to.** -/
theorem confine_given (B : Builtins) {s : Settings} (hconf : userConf e k ip runId = some conf)
    (hcarried : Carried conf) (hs : Started g conf address env)
    (h : Reads e k bucket region address env) (hpin : g.environ "PIN_CORES" = none)
    (hload : Env.load env debug = .ok s) (hw : k.workers < 2 ^ 64) :
    g.confine B (arrived conf) =
      some (s.tuning.pinCores.elim [] fun n => Guest.taskset n.toNat) := by
  obtain ⟨_, _, workers, _, _, _, -, -, hworkers, -, -, -, hitems⟩ := userConf_cases hconf
  have hmem_workers : ("BENCH_WORKERS", workers) ∈ conf := by simp [hitems, keys]
  have hmem_mode : ("MODE", k.mode) ∈ conf := by simp [hitems, keys]
  have hsent : ∀ {key value}, (key, value) ∈ conf → sent value = text value := fun h =>
    sent_eq_iff.mpr (hcarried _ h).1
  obtain ⟨hdigits, hlist⟩ := toList_of_str hworkers
  have hnq : g.nq B (arrived conf) = some k.workers := by
    rw [Guest.nq, cfg_of_mem hconf hmem_workers, hsent hmem_workers]
    have hne : text workers ≠ [] := by
      rw [text, hlist, Ne, List.map_eq_nil_iff]
      exact Nat.toDigits_ne_nil
    rw [if_neg hne, text, chars_map, hlist]
    exact B.int_toDigits hdigits
  have hmodes : g.Capped (arrived conf) ↔ Env.Pins env := by
    have hcapped : g.Capped (arrived conf) ↔
        k.mode ∈ ["capped", "parity", "nogro", "nogro1500"] := by
      rw [Guest.Capped, cfg_of_mem hconf hmem_mode, hsent hmem_mode, List.mem_map]
      constructor
      · rintro ⟨m, hm, heq⟩
        exact text_inj heq ▸ hm
      · exact fun hm => ⟨_, hm, rfl⟩
    rw [hcapped, Env.Pins, h.mode]
    by_cases hempty : k.mode = ""
    · rw [hempty]
      decide
    · rw [if_neg hempty]
      exact mem_modes k.mode
  have hcores : Env.pin env = UInt64.ofNat k.workers := by
    have hnone : Env.var env "PIN_CORES" = none := by
      rw [Env.var, hs.own (by decide) (by decide) hpin]
      rfl
    rw [Env.pin, hnone, ← h.workers.trans (if_pos hw)]
    rfl
  obtain ⟨htuning, -, -⟩ := load_spec hload
  rw [Guest.confine, hnq, htuning, pinCores_tuning, hcores]
  by_cases hpins : Env.Pins env
  · rw [if_pos hpins]
    simp only [Option.bind_eq_bind, Option.bind_some, if_pos (hmodes.mpr hpins),
      UInt64.toNat_ofNat_of_lt' hw, Option.pure_def, Option.elim_some]
  · rw [if_neg hpins]
    simp only [Option.bind_eq_bind, Option.bind_some, if_neg (mt hmodes.mp hpins),
      Option.pure_def, Option.elim_none]

def plainEnviron : Environ := fun key =>
  if key = "AWS_BUCKET" then some "bench"
  else if key = "AWS_REGION" then some "eu-north-1"
  else none

def capped : Cfg := { workers := 8, conns := 24, block := 134217728, blocks := 0, mode := "capped" }

/-- A guest that has no environment of its own and resolves every name to one address. -/
def plainGuest : Guest where
  environ := fun _ => none
  iface := "ens5"
  resolve := fun _ => some "52.95.171.1"

def cappedConf : List (String × String) :=
  keys.zip ["bench", "eu-north-1", "10G", "", "8", "24", "134217728", "0", "0", "https", "capped",
    "run"]

theorem userConf_capped : userConf plainEnviron capped "" "run" = some cappedConf := by
  have hstr : ∀ n, n < 10 ^ 20 → str n = some (String.ofList (Nat.toDigits 10 n)) := fun n hn =>
    if_pos (Builtins.lt_maxDigits hn)
  simp only [userConf, capped, hstr 8 (by decide), hstr 24 (by decide),
    hstr 134217728 (by decide), hstr 0 (by decide)]
  rfl

/-- The program of the point, without the scripts. -/
def cappedProgram : List Char := (guestScript cappedConf [] []).getD []

theorem guestScript_capped : guestScript cappedConf [] [] = some cappedProgram := rfl

end LinuxS3
