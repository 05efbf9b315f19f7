import LayeredConfig.Schema

namespace LayeredConfig.NodeSchema

def diskAccessMode : Enumeration :=
  ⟨"DiskAccessMode", [("AUTO", .str "auto"), ("MMAP", .str "mmap"),
    ("MMAP_INDEX_ONLY", .str "mmap_index_only"), ("STANDARD", .str "standard")]⟩

def commitLogSync : Enumeration :=
  ⟨"CommitLogSync", [("PERIODIC", .str "periodic"), ("BATCH", .str "batch"),
    ("GROUP", .str "group")]⟩

def memtableAllocationType : Enumeration :=
  ⟨"MemtableAllocationType", [("HEAP_BUFFERS", .str "heap_buffers"),
    ("OFFHEAP_BUFFERS", .str "offheap_buffers"), ("OFFHEAP_OBJECTS", .str "offheap_objects")]⟩

/-- All enumerations of the schema. -/
def enumerations : List Enumeration :=
  [diskAccessMode, commitLogSync, memtableAllocationType]

/-- A setting that may be null and is so by default. -/
def optional (name : String) (shape : Shape) : Setting Shape :=
  ⟨name, shape, .null⟩

def text (name default : String) : Setting Shape :=
  ⟨name, .str, .str default⟩

def whole (name : String) (default : Int) : Setting Shape :=
  ⟨name, .int, .int default⟩

def flag (name : String) (default : Bool) : Setting Shape :=
  ⟨name, .bool, .bool default⟩

/-- A setting whose default is a member of its enumeration. -/
def choice (name : String) (type : Enumeration) (member value : String) : Setting Shape :=
  ⟨name, .enumeration type, .member type.name member (.str value)⟩

/-- The name of a class, and free parameters for it. -/
def parameterizedClass : Schema :=
  ⟨"ParameterizedClass",
    [optional "class_name" .str,
      optional "parameters" (.map .str .str)]⟩

def encryptionOptions : Schema :=
  ⟨"EncryptionOptions",
    [flag "enabled" false,
      flag "optional" false,
      text "keystore" "conf/.keystore",
      optional "keystore_password" .str,
      text "truststore" "conf/.truststore",
      optional "truststore_password" .str,
      text "protocol" "TLS",
      optional "cipher_suites" (.list .str),
      flag "require_client_auth" false]⟩

/-- The seed provider of a node that names none. -/
def defaultSeedProvider : Value :=
  .document "ParameterizedClass"
    [⟨"class_name", false, .str "node_config.seeds.SimpleSeedProvider"⟩,
      ⟨"parameters", false, .dict .concurrent [(.str "seeds", .str "127.0.0.1:7000")]⟩]

/-- The threshold for suspicion of a node that names none, which is 8. -/
def defaultThreshold : Scalar :=
  .float (.finite false (Nat.pow 2 52) (-49) (by decide))

/-- The configuration of a node. -/
def nodeConfig : Schema :=
  ⟨"NodeConfig",
    [text "cluster_name" "Test Cluster",
      whole "num_tokens" 16,
      optional "initial_token" .str,
      ⟨"seed_provider", parameterizedClass.shape, defaultSeedProvider⟩,
      optional "listen_address" .str,
      optional "listen_interface" .str,
      optional "broadcast_address" .str,
      optional "rpc_address" .str,
      whole "storage_port" 7000,
      whole "ssl_storage_port" 7001,
      whole "native_transport_port" 9042,
      text "endpoint_snitch" "SimpleSnitch",
      ⟨"data_file_directories", .list .str, .seq .concurrent []⟩,
      optional "commitlog_directory" .str,
      optional "hints_directory" .str,
      optional "saved_caches_directory" .str,
      choice "commitlog_sync" commitLogSync "PERIODIC" "periodic",
      whole "commitlog_sync_period_in_ms" 10000,
      choice "disk_access_mode" diskAccessMode "AUTO" "auto",
      choice "memtable_allocation_type" memtableAllocationType "HEAP_BUFFERS" "heap_buffers",
      whole "concurrent_reads" 32,
      whole "concurrent_writes" 32,
      ⟨"phi_convict_threshold", .float, .scalar defaultThreshold⟩,
      flag "auto_snapshot" true,
      flag "hinted_handoff_enabled" true,
      ⟨"hinted_handoff_disabled_datacenters", .set .str, .set .concurrent []⟩,
      text "authenticator" "AllowAllAuthenticator",
      text "authorizer" "AllowAllAuthorizer",
      optional "back_pressure_strategy" parameterizedClass.shape,
      ⟨"server_encryption_options", encryptionOptions.shape, encryptionOptions.newDocument⟩,
      ⟨"client_encryption_options", encryptionOptions.shape, encryptionOptions.newDocument⟩,
      ⟨"table_properties", .map .str .str, .dict .concurrent []⟩]⟩

/-- A document without settings. -/
def emptyDocument : Schema :=
  ⟨"ConfigDocument", []⟩

/-- All schemas that have names of their own. -/
def schemas : List Schema :=
  [nodeConfig, encryptionOptions, parameterizedClass, emptyDocument]

end LayeredConfig.NodeSchema
