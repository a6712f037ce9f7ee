import RayonBatch.Basis.Runs
import RayonBatch.Basis.Traces
import RayonBatch.Basis.Channel
import RayonBatch.Basis.Sums
import RayonBatch.Basis.Keyed
import RayonBatch.Model.Builder
import RayonBatch.Model.Outcome
import RayonBatch.Batch.Progress
import RayonBatch.Batch.Unwinding
import RayonBatch.Batch.Calm
import RayonBatch.Batch.Endings
import RayonBatch.Batch.Order
import RayonBatch.Batch.Realised
import RayonBatch.Batch.Rendezvous
import RayonBatch.Nested.CrossPool
import RayonBatch.Nested.Dispatch
import RayonBatch.Nested.Registry
import RayonBatch.Nested.EachOnce
import RayonBatch.Pool.Delay
import RayonBatch.Pool.ExactlyOnce
import RayonBatch.Registry.History
import RayonBatch.Call.Capped
import RayonBatch.Call.Overshoot
import RayonBatch.Call.ScheduleError
import RayonBatch.Call.Chunks
import RayonBatch.Call.Paced
