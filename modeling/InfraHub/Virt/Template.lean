import InfraHub.Virt.Sync

/-!
# Virt — Template

`sync_templates` of `tasks.py`, with `parse_template_info` and `sync_template_to_db`.

The templates are among the virtual machines of the inventory.  Their rows are in a table of their
own, with the constraints of the other two: `uuid` unique in it, and `(platform, name)`.
-/

namespace InfraHub.Virt
open InfraHub.Lib (Prog)
open InfraHub.Lib.Prog (raise attempt update read lift forEach)

/-- The columns of `VMTemplate` that a sync writes beside the keys. -/
structure TemplateColumns where
  display_name : String
  os_type : String
  cpu_count : Nat
  memory_mb : Nat
  disk_gb : Nat
  category : String
  deriving DecidableEq, Repr

/-- What `parse_template_info` returns. -/
abbrev TemplateData := Record TemplateColumns

/-- `parse_template_info`; `none` is its `return None`. -/
def parse_template_info (vm : VirtualMachineObject) : Read (Option TemplateData) := do
  let name ← vm.name
  let config ← vm.config
  match config with
  | none => return none
  | some config =>
      return some {
        uuid := config.uuid
        name
        mo_ref := vm.moId
        columns := {
          display_name := config.name
          os_type := infer_os_type ((config.guestId.getD "").map Char.toLower)
          cpu_count := (config.hardware.map (·.numCPU)).getD 1
          memory_mb := (config.hardware.map (·.memoryMB)).getD 1024
          disk_gb := (disk_totals ((config.hardware.map (·.device)).getD [])).2
          category := "" } }

/-- The tables and the local variables of `sync_templates`. -/
structure TemplateWalk where
  db : VirtDb
  templates : Table TemplateColumns
  /-- `template_uuids` -/
  uuids : List String
  synced_count : Nat
  failed_count : Nat

abbrev TemplateSync (α : Type) := Prog TemplateWalk Fault α

section
variable (fault : Record TemplateColumns → Option Fault) (platform : Nat)

def sync_template_to_db (template_data : TemplateData) : TemplateSync Unit := do
  let templates ← read (·.templates)
  let templates ← lift (templates.update_or_create fault platform template_data)
  update fun s => { s with templates }

/-- `except Exception as e:` of the loop. -/
def count_template_failure (nameLogged : Read String) : TemplateSync Unit := do
  let _ ← lift nameLogged
  update fun s => { s with failed_count := s.failed_count + 1 }

/-- What the loop does with a template. -/
def sync_template (vm : VirtualMachineObject) : TemplateSync Unit := do
  match ← lift (parse_template_info vm) with
  | none => raise "'NoneType' object is not subscriptable"
  | some template_data =>
      update fun s => { s with uuids := s.uuids ++ [template_data.uuid] }
      sync_template_to_db fault platform template_data
      update fun s => { s with synced_count := s.synced_count + 1 }

/-- The body of the loop of `sync_templates`. -/
def visit_template (vm : VirtualMachineObject) : TemplateSync Unit :=
  attempt
    (do
      match ← lift vm.config with
      | none => pure ()
      | some config => if !config.template then pure () else sync_template fault platform vm)
    fun _ => count_template_failure vm.nameLogged

/-- `VMTemplate.objects.filter(platform=platform, is_active=True).exclude(uuid__in=template_uuids)`. -/
def stale_template (uuids : List String) (r : Row TemplateColumns) : Bool :=
  r.platform = platform && r.is_active && r.excluded uuids

/-- `sync_templates`; `fetched` is what connecting and `client.get_vms()` come to. -/
def sync_templates (fetched : Except Fault (List VirtualMachineObject)) :
    TemplateSync TaskResult := do
  let found ← read (·.db.has_platform platform)
  if !found then return .failure "平台不存在或未启用"
  else do
    let vms ← lift fetched
    forEach (visit_template fault platform) vms
    update fun s =>
      { s with templates := s.templates.deactivate (stale_template platform s.uuids) }
    read fun s => .success s.synced_count s.failed_count

end

/-- `sync_templates` before its first line. -/
def TemplateWalk.start (db : VirtDb) (templates : Table TemplateColumns) : TemplateWalk :=
  ⟨db, templates, [], 0, 0⟩

end InfraHub.Virt
