import CubeOperator.Content.Handlers
import CubeOperator.Desired.Totality
import CubeOperator.Desired.Wiring
import CubeOperator.Handover.Runs
import CubeOperator.Isolation.Permissions
import CubeOperator.Isolation.Removal
import CubeOperator.Parity.Verdict
import CubeOperator.Scripts.Bootstrap
import CubeOperator.Status.Cached
import CubeOperator.Status.Conditions
import CubeOperator.Status.Reason
import CubeOperator.Status.Rollout
import CubeOperator.Telemetry.Observations
import CubeOperator.Telemetry.Delivery
import CubeOperator.Telemetry.Documented
import CubeOperator.Telemetry.Replay
import CubeOperator.Telemetry.Recording
import CubeOperator.Telemetry.Retention
import CubeOperator.Telemetry.Verification
import CubeOperator.Topology.Deletion
import CubeOperator.Watch.Resync
import CubeOperator.Telemetry.Verified
