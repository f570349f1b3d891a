import ResumableUpload.Fields
import ResumableUpload.Json.Record
import ResumableUpload.Plan.Sizing
import ResumableUpload.Retry.Policy
import ResumableUpload.Text.Quoted
import ResumableUpload.Text.Slashes
import ResumableUpload.Toml.Reader
import ResumableUpload.Toml.Record
import ResumableUpload.Toml.Writer

/-!
# Settings

What can be set about an upload, with a default for everything. Settings that can do no work are
found out before an upload starts (`Settings.problem?`); what they mean for retries and for the
search for an upload host is told here.
-/

namespace ResumableUpload

/-- How upload hosts are found. -/
structure EndpointSettings where
  /-- Hosts are asked for; otherwise the fallback address is always used. -/
  dynamic : Bool := true
  /-- The address used when none is found. -/
  fallbackUrl : String := "https://d.pcs.baidu.com"
  /-- The fallback address may be used when the search fails. -/
  allowFallback : Bool := true
  ttl : Duration := .ofSeconds 3600
  lookupTimeout : Duration := .ofSeconds 10

def EndpointSettings.shown (s : EndpointSettings) : String :=
  "EndpointSettings \x7b dynamic: " ++ toString s.dynamic
    ++ ", fallback_url: " ++ Text.quoted s.fallbackUrl
    ++ ", allow_fallback: " ++ toString s.allowFallback
    ++ ", ttl: " ++ s.ttl.text
    ++ ", lookup_timeout: " ++ s.lookupTimeout.text ++ " \x7d"

/-- Settings of uploads. -/
structure Settings where
  uploadThread : Nat := 3
  /-- The upload address, or the fallback address if hosts are asked for. -/
  uploadApi : String := "https://d.pcs.baidu.com"
  useDynamicUploadApi : Bool := true
  allowFallback : Bool := true
  /-- The size of a part in bytes; zero leaves the choice open. -/
  customUploadPartSize : Nat := 0
  lowBandwidthUploadMode : Bool := false
  vipType : Membership := .normal
  maxRetries : Nat := 3
  retryWaitMs : Nat := 1000
  retryMaxWaitMs : Nat := 5000
  uploadUrlExpireSecs : Nat := 3600
  uploadTimeoutSecs : Nat := 1800
  locateTimeoutSecs : Nat := 10
  progressFile : Option String := none
  deriving DecidableEq

namespace Settings

/-! ### Meaning -/

/-- Why settings can do no work. -/
inductive Problem
  | threads (given : Nat)
  | address (given : String)
  | waits (first longest : Nat)
  | noTime
  deriving DecidableEq

def Problem.text : Problem → String
  | threads n => s!"上传线程数必须在 1-32 之间，当前: {n}"
  | address a => "上传地址无效: '" ++ a ++ "'"
  | waits first longest => s!"初始重试等待 ({first}ms) 不能大于最大重试等待 ({longest}ms)"
  | noTime => "上传请求超时不能为 0"

/-- The first problem with the settings. -/
def problem? (s : Settings) : Option Problem :=
  if s.uploadThread < 1 ∨ 32 < s.uploadThread then some (.threads s.uploadThread)
  else if !(Text.startsWith s.uploadApi "https://" || Text.startsWith s.uploadApi "http://") then
    some (.address s.uploadApi)
  else if s.retryMaxWaitMs < s.retryWaitMs then some (.waits s.retryWaitMs s.retryMaxWaitMs)
  else if s.uploadTimeoutSecs = 0 then some .noTime
  else none

/-- How many parts are sent at once: one with little bandwidth. -/
def effectiveThreads (s : Settings) : Nat :=
  if s.lowBandwidthUploadMode then 1 else clampThreads s.uploadThread

def uploadTimeout (s : Settings) : Duration := .ofSeconds s.uploadTimeoutSecs

def retryPolicy (s : Settings) : Retry.Policy where
  maxRetries := s.maxRetries
  baseWait := .ofMillis s.retryWaitMs
  maxWait := .ofMillis s.retryMaxWaitMs
  attemptTimeout := s.uploadTimeout
  jitter := false

def endpointSettings (s : Settings) : EndpointSettings where
  dynamic := s.useDynamicUploadApi
  fallbackUrl := Text.trimSlashes s.uploadApi
  allowFallback := s.allowFallback
  ttl := .ofSeconds s.uploadUrlExpireSecs
  lookupTimeout := .ofSeconds s.locateTimeoutSecs

def sizing (s : Settings) : Sizing where
  membership := s.vipType
  lowBandwidth := s.lowBandwidthUploadMode
  hint := s.customUploadPartSize
  threads := s.effectiveThreads

/-! ### Reading and writing -/

def fieldNames : List String :=
  ["upload_thread", "upload_api", "use_dynamic_upload_api", "allow_fallback",
    "custom_upload_part_size", "low_bandwidth_upload_mode", "vip_type", "max_retries",
    "retry_wait_ms", "retry_max_wait_ms", "upload_url_expire_secs", "upload_timeout_secs",
    "locate_timeout_secs", "progress_file"]

/-- Settings from the fields given; all others keep their defaults. -/
def ofFields? (p : Scalars V) (r : Fields V) : Option Settings := do
  let d : Settings := {}
  pure {
    uploadThread := ← r.defaulted "upload_thread" (p.natOfBits? 64) d.uploadThread
    uploadApi := ← r.defaulted "upload_api" p.text? d.uploadApi
    useDynamicUploadApi := ← r.defaulted "use_dynamic_upload_api" p.bool? d.useDynamicUploadApi
    allowFallback := ← r.defaulted "allow_fallback" p.bool? d.allowFallback
    customUploadPartSize :=
      ← r.defaulted "custom_upload_part_size" (p.natOfBits? 64) d.customUploadPartSize
    lowBandwidthUploadMode :=
      ← r.defaulted "low_bandwidth_upload_mode" p.bool? d.lowBandwidthUploadMode
    vipType :=
      ← r.defaulted "vip_type" (fun v => (p.name? v).bind Membership.ofKey?) d.vipType
    maxRetries := ← r.defaulted "max_retries" (p.natOfBits? 32) d.maxRetries
    retryWaitMs := ← r.defaulted "retry_wait_ms" (p.natOfBits? 64) d.retryWaitMs
    retryMaxWaitMs := ← r.defaulted "retry_max_wait_ms" (p.natOfBits? 64) d.retryMaxWaitMs
    uploadUrlExpireSecs :=
      ← r.defaulted "upload_url_expire_secs" (p.natOfBits? 64) d.uploadUrlExpireSecs
    uploadTimeoutSecs := ← r.defaulted "upload_timeout_secs" (p.natOfBits? 64) d.uploadTimeoutSecs
    locateTimeoutSecs := ← r.defaulted "locate_timeout_secs" (p.natOfBits? 64) d.locateTimeoutSecs
    progressFile := ← r.defaulted "progress_file" p.optionalText? d.progressFile }

def ofJson? (v : Json) : Option Settings := do
  ofFields? Json.scalars (← Json.fields? fieldNames v)

/-- The settings as fields in their declared order; the file of resume records only if there is
one. -/
def fields (s : Settings) : List (String × Scalar) :=
  [("upload_thread", .nat s.uploadThread), ("upload_api", .text s.uploadApi),
    ("use_dynamic_upload_api", .bool s.useDynamicUploadApi),
    ("allow_fallback", .bool s.allowFallback),
    ("custom_upload_part_size", .nat s.customUploadPartSize),
    ("low_bandwidth_upload_mode", .bool s.lowBandwidthUploadMode),
    ("vip_type", .text s.vipType.key), ("max_retries", .nat s.maxRetries),
    ("retry_wait_ms", .nat s.retryWaitMs), ("retry_max_wait_ms", .nat s.retryMaxWaitMs),
    ("upload_url_expire_secs", .nat s.uploadUrlExpireSecs),
    ("upload_timeout_secs", .nat s.uploadTimeoutSecs),
    ("locate_timeout_secs", .nat s.locateTimeoutSecs)]
    ++ s.progressFile.toList.map fun path => ("progress_file", .text path)

def toJson (s : Settings) : Json :=
  .record (s.fields.map fun (name, value) => (name, Json.ofScalar value))

def sectionNames : List String := ["upload"]

/-- The settings in a section of a JSON value; without the section, the defaults. -/
def ofSectionJson? (v : Json) : Option Settings := do
  (← Json.fields? sectionNames v).defaulted "upload" ofJson? {}

def ofToml? (v : Toml) : Option Settings := do
  ofFields? Toml.scalars (← Toml.fields? fieldNames v)

/-- The settings in a TOML text; without their section, the defaults. -/
def ofTomlText? (text : String) : Option Settings := do
  (← Toml.fields? sectionNames (← Toml.read? text)).defaulted "upload" ofToml? {}

/-- The settings as a TOML text, if all numbers fit. -/
def tomlText? (s : Settings) : Option String := Toml.writeTable? "upload" s.fields

def toSectionJson (s : Settings) : Json := .record [("upload", s.toJson)]

end Settings

end ResumableUpload
