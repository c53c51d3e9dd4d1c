import LamBoot.Acpi.Ivrs
import LamBoot.Bls.Laws
import LamBoot.Bls.Numeric
import LamBoot.Boot.Interfaces
import LamBoot.Boot.IsoCmdline
import LamBoot.Boot.IsoMenu
import LamBoot.Boot.IsoRecipes
import LamBoot.Boot.Mismatch
import LamBoot.Boot.Preflight
import LamBoot.Boot.Report
import LamBoot.Boot.SecurityOverride
import LamBoot.Boot.Trust
import LamBoot.BootEntry.SelfInstall
import LamBoot.Discovery.Cohorts
import LamBoot.Discovery.Copies
import LamBoot.Discovery.Dedup
import LamBoot.Discovery.Exhausted
import LamBoot.Discovery.Ids
import LamBoot.Discovery.Initrds
import LamBoot.Discovery.RootParam
import LamBoot.Discovery.Tools
import LamBoot.Fs.Btrfs
import LamBoot.Fs.Cache
import LamBoot.Fs.Superblock
import LamBoot.FwCfg.Injected
import LamBoot.Health.Strings
import LamBoot.Inspect.Interrupted
import LamBoot.Inspect.NoEntries
import LamBoot.Inspect.Schema
import LamBoot.Inspect.Verdict
import LamBoot.Main.Handoff
import LamBoot.Main.Recovery
import LamBoot.Main.Sharing
import LamBoot.Main.Success
import LamBoot.Main.Volumes
import LamBoot.Menu.Window
import LamBoot.Policy.Document
import LamBoot.Smbios
import LamBoot.Tools.BootOrder
import LamBoot.Tools.Coverage
import LamBoot.Tools.EspRemoval
import LamBoot.Tools.KernelHook
import LamBoot.Tools.KeyVal
import LamBoot.Tools.MenuEntry
import LamBoot.Tools.VariableStore
