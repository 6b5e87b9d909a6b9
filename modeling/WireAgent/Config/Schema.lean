import WireAgent.Number.Digits

/-!
# Options

The options of the configuration file, each with the form that its values have and its default.
-/

namespace WireAgent.Config

/-- The value of an option. -/
inductive Value where
  | absent
  | flag (b : Bool)
  | number (n : Int)
  | text (s : String)
  deriving DecidableEq, Repr

/-- The text that stands for no value. -/
def absentText : String := "None"

namespace Value

/-- The text of a value. -/
def format : Value → String
  | .absent => absentText
  | .flag true => "true"
  | .flag false => "false"
  | .number n => Number.ofInt n
  | .text s => s

/-- Is a value other than nothing, no, zero and the empty text? -/
def holds : Value → Bool
  | .absent => false
  | .flag b => b
  | .number n => n != 0
  | .text s => !s.isEmpty

end Value

/-- The form of the values of an option. -/
inductive Form where
  | flag
  | number
  | text
  | port
  deriving DecidableEq, Repr

namespace Form

/-- All forms. -/
def all : List Form := [.flag, .number, .text, .port]

/-- The name of a form. -/
def name : Form → String
  | .flag => "bool"
  | .number => "integer"
  | .text => "string"
  | .port => "port"

/-- The form of a name. -/
def ofName? (name : String) : Option Form := all.find? fun form => form.name == name

end Form

/-- An option. -/
structure Entry where
  key : String
  form : Form
  fallback : Value
  deriving DecidableEq, Repr

/-- The options that are switched on or off. -/
def flagOptions : List Entry :=
  [⟨"OS.AllowHTTP", .flag, .flag false⟩, ⟨"OS.EnableFirewall", .flag, .flag false⟩,
   ⟨"OS.EnableFIPS", .flag, .flag false⟩, ⟨"OS.EnableRDMA", .flag, .flag false⟩,
   ⟨"OS.UpdateRdmaDriver", .flag, .flag false⟩, ⟨"OS.CheckRdmaDriver", .flag, .flag false⟩,
   ⟨"Logs.Verbose", .flag, .flag false⟩, ⟨"Logs.Console", .flag, .flag true⟩,
   ⟨"Logs.Collect", .flag, .flag true⟩, ⟨"Extensions.Enabled", .flag, .flag true⟩,
   ⟨"Extensions.WaitForCloudInit", .flag, .flag false⟩,
   ⟨"Provisioning.AllowResetSysUser", .flag, .flag false⟩,
   ⟨"Provisioning.RegenerateSshHostKeyPair", .flag, .flag false⟩,
   ⟨"Provisioning.DeleteRootPassword", .flag, .flag false⟩,
   ⟨"Provisioning.DecodeCustomData", .flag, .flag false⟩,
   ⟨"Provisioning.ExecuteCustomData", .flag, .flag false⟩,
   ⟨"Provisioning.MonitorHostName", .flag, .flag false⟩, ⟨"DetectScvmmEnv", .flag, .flag false⟩,
   ⟨"ResourceDisk.Format", .flag, .flag false⟩, ⟨"ResourceDisk.EnableSwap", .flag, .flag false⟩,
   ⟨"ResourceDisk.EnableSwapEncryption", .flag, .flag false⟩,
   ⟨"AutoUpdate.Enabled", .flag, .flag true⟩,
   ⟨"AutoUpdate.UpdateToLatestVersion", .flag, .flag true⟩,
   ⟨"EnableOverProvisioning", .flag, .flag true⟩, ⟨"Debug.CgroupLogMetrics", .flag, .flag false⟩,
   ⟨"Debug.CgroupDisableOnProcessCheckFailure", .flag, .flag true⟩,
   ⟨"Debug.CgroupDisableOnQuotaCheckFailure", .flag, .flag true⟩,
   ⟨"Debug.EnableAgentMemoryUsageCheck", .flag, .flag false⟩,
   ⟨"Debug.EnableFastTrack", .flag, .flag true⟩, ⟨"Debug.EnableGAVersioning", .flag, .flag true⟩,
   ⟨"Debug.EnableCgroupV2ResourceLimiting", .flag, .flag false⟩,
   ⟨"Debug.EnableExtensionPolicy", .flag, .flag false⟩]

/-- The options that are texts. -/
def textOptions : List Entry :=
  [⟨"Lib.Dir", .text, .text "/var/lib/waagent"⟩,
   ⟨"DVD.MountPoint", .text, .text "/mnt/cdrom/secure"⟩,
   ⟨"Pid.File", .text, .text "/var/run/waagent.pid"⟩,
   ⟨"Extension.LogDir", .text, .text "/var/log/azure"⟩,
   ⟨"OS.OpensslPath", .text, .text "/usr/bin/openssl"⟩, ⟨"OS.SshDir", .text, .text "/etc/ssh"⟩,
   ⟨"OS.HomeDir", .text, .text "/home"⟩, ⟨"OS.PasswordPath", .text, .text "/etc/shadow"⟩,
   ⟨"OS.SudoersDir", .text, .text "/etc/sudoers.d"⟩,
   ⟨"OS.RootDeviceScsiTimeout", .text, .text absentText⟩,
   ⟨"Provisioning.Agent", .text, .text "auto"⟩,
   ⟨"Provisioning.SshHostKeyPairType", .text, .text "rsa"⟩,
   ⟨"Provisioning.PasswordCryptId", .text, .text "6"⟩,
   ⟨"HttpProxy.Host", .text, .text absentText⟩,
   ⟨"ResourceDisk.MountPoint", .text, .text "/mnt/resource"⟩,
   ⟨"ResourceDisk.MountOptions", .text, .text absentText⟩,
   ⟨"ResourceDisk.Filesystem", .text, .text "ext3"⟩, ⟨"AutoUpdate.GAFamily", .text, .text "Prod"⟩,
   ⟨"Policy.PolicyFilePath", .text, .text "/etc/waagent_policy.json"⟩,
   ⟨"Protocol.EndpointDiscovery", .text, .text "dhcp"⟩]

/-- The options that are numbers of 32 bits. -/
def numberOptions : List Entry :=
  [⟨"Extensions.GoalStatePeriod", .number, .number 6⟩,
   ⟨"Extensions.InitialGoalStatePeriod", .number, .number 6⟩,
   ⟨"Extensions.WaitForCloudInitTimeout", .number, .number 3600⟩,
   ⟨"OS.EnableFirewallPeriod", .number, .number 300⟩,
   ⟨"OS.RemovePersistentNetRulesPeriod", .number, .number 30⟩,
   ⟨"OS.RootDeviceScsiTimeoutPeriod", .number, .number 30⟩,
   ⟨"OS.MonitorDhcpClientRestartPeriod", .number, .number 30⟩,
   ⟨"OS.SshClientAliveInterval", .number, .number 180⟩,
   ⟨"Provisioning.MonitorHostNamePeriod", .number, .number 30⟩,
   ⟨"Provisioning.PasswordCryptSaltLength", .number, .number 10⟩,
   ⟨"ResourceDisk.SwapSizeMB", .number, .number 0⟩,
   ⟨"Autoupdate.Frequency", .number, .number 3600⟩, ⟨"Logs.CollectPeriod", .number, .number 3600⟩,
   ⟨"Debug.CgroupCheckPeriod", .number, .number 300⟩,
   ⟨"Debug.AgentCpuQuota", .number, .number 50⟩,
   ⟨"Debug.AgentCpuThrottledTimeThreshold", .number, .number 120⟩,
   ⟨"Debug.AgentMemoryQuota", .number, .number 31457280⟩,
   ⟨"Debug.EtpCollectionPeriod", .number, .number 300⟩,
   ⟨"Debug.AutoUpdateHotfixFrequency", .number, .number 14400⟩,
   ⟨"Debug.AutoUpdateNormalFrequency", .number, .number 86400⟩,
   ⟨"Debug.FirewallRulesLogPeriod", .number, .number 86400⟩,
   ⟨"Debug.LogCollectorInitialDelay", .number, .number 300⟩]

/-- The options that are port numbers. -/
def portOptions : List Entry :=
  [⟨"HttpProxy.Port", .port, .absent⟩]

/-- All options. -/
def schema : List Entry := flagOptions ++ textOptions ++ numberOptions ++ portOptions

/-- The option of a key. -/
def option? (key : String) : Option Entry := schema.find? fun entry => entry.key == key

end WireAgent.Config
