/-!
# Cloud providers

The clouds on which modules can run. A slug names a provider in module names and sources.
-/
namespace ClusterLedger

/-- A cloud on which modules can run. -/
inductive Provider where
  | triton
  | aws
  | azure
  | gcp
  | bareMetal
  | vsphere
  deriving DecidableEq, Repr, Inhabited

namespace Provider

/-- All providers, in the order in which they are listed to users. -/
def all : List Provider :=
  [triton, aws, azure, gcp, bareMetal, vsphere]

theorem mem_all (p : Provider) : p ∈ all := by
  cases p <;> decide

/-- The name of a provider in module names and sources. -/
def slug : Provider → String
  | triton => "triton"
  | aws => "aws"
  | azure => "azure"
  | gcp => "gcp"
  | bareMetal => "bare-metal"
  | vsphere => "vsphere"

theorem slug_injective {p q : Provider} (h : p.slug = q.slug) : p = q := by
  cases p <;> cases q <;> first | rfl | exact absurd h (by decide)

/-- The provider of a slug. -/
def ofSlug? (s : String) : Option Provider :=
  all.find? fun p => p.slug = s

/-- The account fields that a node takes over from its cluster. -/
def credentialFields : Provider → List String
  | triton => ["triton_account", "triton_key_path", "triton_key_id", "triton_url"]
  | aws => ["aws_access_key", "aws_secret_key", "aws_region"]
  | azure => ["azure_subscription_id", "azure_client_id", "azure_client_secret", "azure_tenant_id",
      "azure_environment", "azure_location"]
  | gcp => ["gcp_path_to_credentials", "gcp_project_id", "gcp_compute_region"]
  | bareMetal => []
  | vsphere => ["vsphere_user", "vsphere_password", "vsphere_server", "vsphere_datacenter_name"]

end Provider

end ClusterLedger
