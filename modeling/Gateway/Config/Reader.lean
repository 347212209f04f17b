import Gateway.Config.Basic
import Gateway.Toml.Document
/-!
# Reading a configuration

A configuration is read from the root table of a TOML document. A section may be a table or a list
of its fields in order. Fields that are not set keep their standard values, and names that mean
nothing are skipped; a value of the wrong type refuses the whole.
-/

namespace Gateway.Config

/-! ### Values -/

/-- A text. -/
def text? : Toml → Option String
  | .text s => some s
  | _ => none

/-- A natural number below a limit. -/
def below? (limit : Nat) : Toml → Option Nat
  | .integer n => if 0 ≤ n ∧ n < limit then some n.toNat else none
  | _ => none

/-- A count or a number of seconds. -/
def count? : Toml → Option Nat := below? (1 <<< 64)

/-- A flag. -/
def flag? : Toml → Option Bool
  | .flag b => some b
  | _ => none

/-- A text that may be left out. -/
def optionalText? (v : Toml) : Option (Option String) := (text? v).map some

/-! ### Sections -/

/-- The fields of a section, whose names in order are given. A date counts as a section in which
nothing is set. -/
def fields? (names : List String) : Toml → Option Toml.Members
  | .table _ ms => some ms
  | .array items => some (names.zip items)
  | .tables items => some (names.zip (items.map fun ms => .table .header ms))
  | .moment => some []
  | _ => none

/-- The value of a field, or its standard value if it is not set. -/
def field? {α : Type} (ms : Toml.Members) (name : String) (read : Toml → Option α) (standard : α) :
    Option α :=
  match ms.get? name with
  | some v => read v
  | none => some standard

/-- The names of the fields of each section, in order. -/
def sections : List (String × List String) := [
  ("listener", ["bind_address", "max_connections"]),
  ("processing", ["concurrency"]),
  ("timeouts", ["read_secs", "write_secs"]),
  ("response", ["ttl_secs", "gzip_compression", "etag_enabled"]),
  ("security", ["secret", "allow_origin"]),
  ("observability", ["log_level", "metrics_enabled", "metrics_address"]),
  ("download", ["user_agent"])]

/-- The fields of a section of the given name. -/
def sectionFields? (name : String) (v : Toml) : Option Toml.Members :=
  fields? ((sections.lookup name).getD []) v

/-- Reads the section about listening. -/
def Listener.ofToml? (standard : Listener) (v : Toml) : Option Listener := do
  let ms ← sectionFields? "listener" v
  return ⟨← field? ms "bind_address" text? standard.bindAddress,
    ← field? ms "max_connections" count? standard.maxConnections⟩

/-- Reads the section about processing. -/
def Processing.ofToml? (standard : Processing) (v : Toml) : Option Processing := do
  let ms ← sectionFields? "processing" v
  return ⟨← field? ms "concurrency" count? standard.concurrency⟩

/-- Reads the section about times. -/
def Timeouts.ofToml? (standard : Timeouts) (v : Toml) : Option Timeouts := do
  let ms ← sectionFields? "timeouts" v
  return ⟨← field? ms "read_secs" count? standard.readSecs,
    ← field? ms "write_secs" count? standard.writeSecs⟩

/-- Reads the section about responses. -/
def Response.ofToml? (standard : Response) (v : Toml) : Option Response := do
  let ms ← sectionFields? "response" v
  return ⟨← field? ms "ttl_secs" count? standard.ttlSecs,
    ← field? ms "gzip_compression" (below? (1 <<< 32)) standard.gzipLevel,
    ← field? ms "etag_enabled" flag? standard.etags⟩

/-- Reads the section about security. -/
def Security.ofToml? (standard : Security) (v : Toml) : Option Security := do
  let ms ← sectionFields? "security" v
  return ⟨← field? ms "secret" optionalText? standard.secret,
    ← field? ms "allow_origin" optionalText? standard.allowOrigin⟩

/-- Reads the section about logs and measurements. -/
def Observability.ofToml? (standard : Observability) (v : Toml) : Option Observability := do
  let ms ← sectionFields? "observability" v
  return ⟨← field? ms "log_level" text? standard.logLevel,
    ← field? ms "metrics_enabled" flag? standard.metricsEnabled,
    ← field? ms "metrics_address" text? standard.metricsAddress⟩

/-- Reads the section about downloads. -/
def Download.ofToml? (standard : Download) (v : Toml) : Option Download := do
  let ms ← sectionFields? "download" v
  return ⟨← field? ms "user_agent" text? standard.userAgent⟩

/-- The configuration of a root table; `standard` holds the values of what is not set. -/
def ofMembers? (standard : Config) (ms : Toml.Members) : Option Config := do
  let listener ← field? ms "listener" (Listener.ofToml? standard.listener) standard.listener
  let processing ←
    field? ms "processing" (Processing.ofToml? standard.processing) standard.processing
  let timeouts ← field? ms "timeouts" (Timeouts.ofToml? standard.timeouts) standard.timeouts
  let response ← field? ms "response" (Response.ofToml? standard.response) standard.response
  let security ← field? ms "security" (Security.ofToml? standard.security) standard.security
  let observability ← field? ms "observability"
    (Observability.ofToml? standard.observability) standard.observability
  let download ← field? ms "download" (Download.ofToml? standard.download) standard.download
  return { listener, processing, timeouts, response, security, observability, download }

end Gateway.Config
